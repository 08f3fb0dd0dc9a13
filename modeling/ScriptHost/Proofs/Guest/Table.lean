import Mathlib.Data.List.Induction
import Mathlib.Data.List.Nodup
import ScriptHost.Guest.Globals

/-!
# Tables as maps

A table whose index tells the place of every key is a finite map from keys to values, with an order on the
keys. Every table that is made by setting entries is one.

* `Table.Indexed`: the index is right.
* `Table.get_set`, `Table.keys_set`: setting an entry, as a change of the map and of the order.
* `Table.mem_entries`: the entries are the keys that have a value.
* `Value.Within`, `Table.Within`: all the tables that a value or a table refers to are among some.
-/

namespace ScriptHost.Guest

theorem Value.isNil_iff {v : Value} : v.isNil = true ↔ v = .nil := by
  cases v <;> simp [Value.isNil]

namespace Table

variable {t : Table} {k a : Key} {v : Value} {i : ℕ}

/-! ## The order of the keys -/

/-- The keys, in the order in which they were first set. -/
def keys (t : Table) : List Key := t.slots.toList.map Prod.fst

/-- The index tells the place of every key. -/
def Indexed (t : Table) : Prop := ∀ (k : Key) (i : ℕ), t.index[k]? = some i ↔ t.keys[i]? = some k

theorem getElem?_keys (t : Table) (i : ℕ) : t.keys[i]? = t.slots[i]?.map Prod.fst := by
  rw [keys, List.getElem?_map, Array.getElem?_toList]

theorem indexed_empty : Indexed {} := by
  intro k i
  rw [getElem?_keys]
  simp

theorem Indexed.nodup_keys (h : t.Indexed) : t.keys.Nodup := by
  rw [List.nodup_iff_getElem?_ne_getElem?]
  intro i j hij hj heq
  have hkey : t.keys[j]? = some t.keys[j] := List.getElem?_eq_getElem hj
  have hi := (h _ i).mpr (heq.trans hkey)
  have hj' := (h _ j).mpr hkey
  rw [hi] at hj'
  exact Nat.ne_of_lt hij (Option.some.inj hj')

theorem Indexed.index_eq_none (h : t.Indexed) : t.index[k]? = none ↔ k ∉ t.keys := by
  constructor
  · intro hnone hmem
    obtain ⟨i, hi⟩ := List.getElem?_of_mem hmem
    rw [(h k i).mpr hi] at hnone
    exact absurd hnone (by simp)
  · intro hmem
    cases hindex : t.index[k]? with
    | none => rfl
    | some i => exact absurd (List.mem_of_getElem? ((h k i).mp hindex)) hmem

/-! ## Setting an entry -/

theorem set_old (v : Value) (h : t.index[k]? = some i) :
    t.set k v = { t with slots := t.slots.modify i fun slot => (slot.1, v) } := by
  simp only [set, h]

theorem set_new (h : t.index[k]? = none) (hv : v.isNil = false) :
    t.set k v = { t with
      slots := t.slots.push (k, v)
      index := t.index.insert k t.slots.size } := by
  simp only [set, h, hv]
  rfl

theorem set_nothing (h : t.index[k]? = none) (hv : v.isNil = true) : t.set k v = t := by
  simp only [set, h, hv, if_true]

@[simp] theorem metatable_set : (t.set k v).metatable = t.metatable := by
  unfold set
  split
  · rfl
  · split <;> rfl

@[simp] theorem hint_set : (t.set k v).hint = t.hint := by
  unfold set
  split
  · rfl
  · split <;> rfl

theorem keys_modify (t : Table) (i : ℕ) (v : Value) :
    keys { t with slots := t.slots.modify i fun slot => (slot.1, v) } = t.keys := by
  apply List.ext_getElem?
  intro j
  simp only [getElem?_keys, Array.getElem?_modify]
  split
  · rw [Option.map_map]
    rfl
  · rfl

/-- Setting an entry keeps the order of the keys; a new key comes last. -/
theorem keys_set (h : t.Indexed) :
    (t.set k v).keys = if k ∈ t.keys ∨ v.isNil = true then t.keys else t.keys ++ [k] := by
  cases hindex : t.index[k]? with
  | some i =>
    rw [set_old v hindex, keys_modify, if_pos (.inl (List.mem_of_getElem? ((h k i).mp hindex)))]
  | none =>
    have hk := h.index_eq_none.mp hindex
    cases hv : v.isNil with
    | true => rw [set_nothing hindex hv, if_pos (.inr rfl)]
    | false =>
      rw [set_new hindex hv, if_neg (by simp [hk])]
      simp [keys]

theorem Indexed.set (h : t.Indexed) (k : Key) (v : Value) : (t.set k v).Indexed := by
  cases hindex : t.index[k]? with
  | some i =>
    rw [set_old v hindex]
    intro a j
    rw [keys_modify]
    exact h a j
  | none =>
    cases hv : v.isNil with
    | true =>
      rw [set_nothing hindex hv]
      exact h
    | false =>
      intro a j
      -- the new key comes last, at the place that the index gives it
      have hkeys := keys_set h (k := k) (v := v)
      have hk := h.index_eq_none.mp hindex
      rw [if_neg (by simp [hk, hv])] at hkeys
      have hsize : t.keys.length = t.slots.size := by simp [keys]
      rw [hkeys, set_new hindex hv, Std.HashMap.getElem?_insert, List.getElem?_append, hsize]
      by_cases hka : k = a
      · subst hka
        rw [if_pos (by simp), Option.some.injEq]
        by_cases hj : j < t.slots.size
        · have hne := (h k j).not.mp (by simp [hindex])
          rw [if_pos hj]
          exact iff_of_false (by omega) hne
        · rw [if_neg hj, List.getElem?_eq_some_iff]
          constructor
          · rintro rfl
            exact ⟨by simp, by simp⟩
          · rintro ⟨hlt, -⟩
            simp at hlt
            omega
      · rw [if_neg (by simpa using hka), h a j]
        by_cases hj : j < t.slots.size
        · rw [if_pos hj]
        · rw [if_neg hj, List.getElem?_eq_none (by omega)]
          refine iff_of_false (by simp) fun hcons => ?_
          exact hka (List.mem_singleton.mp (List.mem_of_getElem? hcons)).symm

/-! ## Reading an entry -/

theorem get_empty : get {} k = .nil := by
  simp [get]

theorem get_of_index (h : t.index[k]? = some i) : t.get k = t.valueAt i := by
  simp only [get, h]

theorem get_of_index_none (h : t.index[k]? = none) : t.get k = .nil := by
  simp only [get, h]

theorem valueAt_of_slot (h : t.slots[i]? = some (k, v)) : t.valueAt i = v := by
  simp only [valueAt, h]

theorem Indexed.get_of_slot (h : t.Indexed) (hslot : t.slots[i]? = some (k, v)) :
    t.get k = v := by
  have hindex : t.index[k]? = some i := by
    rw [h k i, getElem?_keys, hslot]
    rfl
  rw [get_of_index hindex, valueAt_of_slot hslot]

theorem Indexed.get_of_mem (h : t.Indexed) (hmem : (k, v) ∈ t.slots.toList) : t.get k = v := by
  obtain ⟨i, hi⟩ := List.getElem?_of_mem hmem
  rw [Array.getElem?_toList] at hi
  exact h.get_of_slot hi

theorem Indexed.get_eq_nil (h : t.Indexed) (hk : k ∉ t.keys) : t.get k = .nil :=
  get_of_index_none (h.index_eq_none.mpr hk)

/-- A key that has a place keeps it, and gets another value. -/
theorem get_set_old (h : t.Indexed) (hindex : t.index[k]? = some i) :
    (t.set k v).get a = if k = a then v else t.get a := by
  have hset := h.set k v
  rw [set_old v hindex] at hset ⊢
  obtain ⟨⟨k', old⟩, hslot, rfl⟩ : ∃ e, t.slots[i]? = some e ∧ e.1 = k := by
    have hkey := (h k i).mp hindex
    rw [getElem?_keys] at hkey
    exact Option.map_eq_some_iff.mp hkey
  by_cases hka : k' = a
  · subst hka
    rw [if_pos rfl]
    refine hset.get_of_slot (i := i) ?_
    rw [Array.getElem?_modify, if_pos rfl, hslot]
    rfl
  · rw [if_neg hka]
    cases hother : t.index[a]? with
    | none => simp only [get, hother]
    | some j =>
      -- two keys have two places
      have hij : i ≠ j := by
        rintro rfl
        have hkey := (h k' i).mp hindex
        rw [(h a i).mp hother] at hkey
        exact hka (Option.some.inj hkey).symm
      simp only [get, hother, valueAt, Array.getElem?_modify, if_neg hij]

/-- A key that has no place gets one after all others. -/
theorem get_set_new (h : t.Indexed) (hindex : t.index[k]? = none) (hv : v.isNil = false) :
    (t.set k v).get a = if k = a then v else t.get a := by
  have hset := h.set k v
  rw [set_new hindex hv] at hset ⊢
  by_cases hka : k = a
  · subst hka
    rw [if_pos rfl]
    refine hset.get_of_slot (i := t.slots.size) ?_
    rw [Array.getElem?_push, if_pos rfl]
  · rw [if_neg hka]
    have hsame : (t.index.insert k t.slots.size)[a]? = t.index[a]? := by
      rw [Std.HashMap.getElem?_insert, if_neg (by simpa using hka)]
    cases hother : t.index[a]? with
    | none => simp only [get, hsame, hother]
    | some j =>
      have hj : t.slots[j]?.isSome := by
        have hkey := (h a j).mp hother
        rw [getElem?_keys] at hkey
        exact Option.isSome_map.symm.trans (by rw [hkey]; rfl)
      have hlt : j < t.slots.size := by simpa using hj
      simp only [get, hsame, hother, valueAt, Array.getElem?_push, if_neg (Nat.ne_of_lt hlt)]

/-- **A table is a map.** Setting an entry changes what is read at its key, and nothing else. -/
theorem get_set (h : t.Indexed) : (t.set k v).get a = if k = a then v else t.get a := by
  cases hindex : t.index[k]? with
  | some i => exact get_set_old h hindex
  | none =>
    cases hv : v.isNil with
    | true =>
      rw [set_nothing hindex hv]
      split
      · next hka => rw [← hka, get_of_index_none hindex, Value.isNil_iff.mp hv]
      · rfl
    | false => exact get_set_new h hindex hv

/-- The entries are the keys that have a value, with their values. -/
theorem mem_entries (h : t.Indexed) : (k, v) ∈ t.entries ↔ t.get k = v ∧ v.isNil = false := by
  rw [entries, List.mem_filter, Bool.not_eq_true']
  refine and_congr_left fun hv => ⟨h.get_of_mem, fun hget => ?_⟩
  cases hindex : t.index[k]? with
  | none =>
    rw [get_of_index_none hindex] at hget
    subst hget
    cases hv
  | some i =>
    have hkey := (h k i).mp hindex
    rw [getElem?_keys] at hkey
    obtain ⟨⟨k', old⟩, hslot, rfl⟩ := Option.map_eq_some_iff.mp hkey
    rw [h.get_of_slot hslot] at hget
    rw [← hget]
    exact List.mem_of_getElem? ((Array.getElem?_toList ..).trans hslot)

theorem Indexed.nodup_entries (h : t.Indexed) : (t.entries.map Prod.fst).Nodup :=
  h.nodup_keys.sublist (List.filter_sublist.map Prod.fst)

/-! ## Tables of named fields -/

theorem Indexed.setText (h : t.Indexed) (name : String) (v : Value) : (t.setText name v).Indexed :=
  h.set _ v

theorem namedTable_append (fields : List (String × Value)) (name : String) (v : Value) :
    namedTable (fields ++ [(name, v)]) = (namedTable fields).setText name v := by
  unfold namedTable
  rw [List.foldl_append]
  rfl

theorem indexed_namedTable (fields : List (String × Value)) : (namedTable fields).Indexed := by
  induction fields using List.reverseRecOn with
  | nil => exact indexed_empty
  | append_singleton fields field ih =>
    rw [namedTable_append]
    exact ih.setText _ _

@[simp] theorem metatable_namedTable (fields : List (String × Value)) :
    (namedTable fields).metatable = none := by
  induction fields using List.reverseRecOn with
  | nil => rfl
  | append_singleton fields field ih =>
    rw [namedTable_append, setText, metatable_set]
    exact ih

/-- The last field of a name is the one that counts. -/
theorem getText_namedTable (fields : List (String × Value)) (name : String) :
    (namedTable fields).getText name = (fields.reverse.lookup name).getD .nil := by
  induction fields using List.reverseRecOn with
  | nil => exact get_empty
  | append_singleton fields field ih =>
    rw [namedTable_append, setText, getText, get_set (indexed_namedTable fields),
      List.reverse_append, List.reverse_singleton, List.singleton_append, List.lookup_cons]
    by_cases hname : field.1 = name
    · rw [if_pos (by rw [hname]), hname, beq_self_eq_true]
      rfl
    · have hkey : Key.str field.1.toUTF8 ≠ Key.str name.toUTF8 := by
        intro heq
        exact hname (String.toByteArray_inj.mp (Key.str.inj heq))
      rw [if_neg hkey, beq_eq_false_iff_ne.mpr (Ne.symm hname)]
      exact ih

end Table

/-! ## What values and tables refer to -/

/-- The table that a value is or, if it is a function of a frozen table, stands for. -/
def Value.ref? : Value → Option Ref
  | .table r => some r
  | .native (.frozenLength r) => some r
  | .native (.frozenPairs r) => some r
  | _ => none

section

variable {S T : Ref → Prop}

/-- A value refers to a table of `S`, if to any. -/
def Value.Within (S : Ref → Prop) (v : Value) : Prop := ∀ r, v.ref? = some r → S r

/-- All that a table holds refers to tables of `S` only. -/
def Table.Holds (S : Ref → Prop) (t : Table) : Prop :=
  ∀ e ∈ t.slots.toList, e.1.toValue.Within S ∧ e.2.Within S

/-- All that a table holds refers to tables of `S` only, and so does its metatable. -/
structure Table.Within (S : Ref → Prop) (t : Table) : Prop where
  slots : t.Holds S
  metatable : ∀ m, t.metatable = some m → S m

theorem Value.within_of_none {v : Value} (h : v.ref? = none) : v.Within S := by
  intro r hr
  rw [h] at hr
  cases hr

theorem Value.within_table {r : Ref} : (Value.table r).Within S ↔ S r :=
  ⟨fun h => h r rfl, fun h _ heq => Option.some.inj heq ▸ h⟩

theorem Value.Within.mono {v : Value} (h : v.Within S) (hST : ∀ r, S r → T r) : v.Within T :=
  fun r hr => hST r (h r hr)

/-- A key refers to what the value refers to that it was made from. -/
theorem Value.Within.key {v : Value} {k : Key} (h : v.Within S) (hk : v.toKey? = some k) :
    k.toValue.Within S := by
  cases v with
  | float x =>
    simp only [Value.toKey?] at hk
    split at hk
    · cases hk
      exact within_of_none rfl
    · split at hk <;> cases hk
      exact within_of_none rfl
  | nil => cases hk
  | _ =>
    cases hk
    exact h

namespace Table

variable {t : Table} {k : Key} {v : Value}

theorem within_empty : Within S {} where
  slots e he := absurd he (by simp)
  metatable m hm := nomatch hm

theorem Within.mono (h : t.Within S) (hST : ∀ r, S r → T r) : t.Within T where
  slots e he := ⟨(h.slots e he).1.mono hST, (h.slots e he).2.mono hST⟩
  metatable m hm := hST m (h.metatable m hm)

theorem Holds.valueAt (h : t.Holds S) (i : ℕ) : (t.valueAt i).Within S := by
  cases hslot : t.slots[i]? with
  | none =>
    simp only [Table.valueAt, hslot]
    exact Value.within_of_none rfl
  | some e =>
    simp only [Table.valueAt, hslot]
    exact (h e (List.mem_of_getElem? ((Array.getElem?_toList ..).trans hslot))).2

theorem Holds.get (h : t.Holds S) (k : Key) : (t.get k).Within S := by
  cases hindex : t.index[k]? with
  | none =>
    rw [get_of_index_none hindex]
    exact Value.within_of_none rfl
  | some i =>
    rw [get_of_index hindex]
    exact h.valueAt i

theorem Within.get (h : t.Within S) (k : Key) : (t.get k).Within S := h.slots.get k

theorem Within.set (h : t.Within S) (hk : k.toValue.Within S) (hv : v.Within S) :
    (t.set k v).Within S where
  slots := by
    intro e he
    cases hindex : t.index[k]? with
    | some i =>
      rw [set_old v hindex, Array.toList_modify] at he
      obtain ⟨j, hj⟩ := List.getElem?_of_mem he
      rw [List.getElem?_modify] at hj
      obtain ⟨old, hold, rfl⟩ := Option.map_eq_some_iff.mp hj
      have hin := h.slots old (List.mem_of_getElem? hold)
      split
      · exact ⟨hin.1, hv⟩
      · exact hin
    | none =>
      cases hnil : v.isNil with
      | true =>
        rw [set_nothing hindex hnil] at he
        exact h.slots e he
      | false =>
        rw [set_new hindex hnil, Array.toList_push, List.mem_append, List.mem_singleton] at he
        rcases he with he | rfl
        · exact h.slots e he
        · exact ⟨hk, hv⟩
  metatable m hm := h.metatable m (metatable_set ▸ hm)

theorem Within.setText (h : t.Within S) (name : String) (hv : v.Within S) :
    (t.setText name v).Within S :=
  h.set (Value.within_of_none rfl) hv

theorem within_namedTable {fields : List (String × Value)} (h : ∀ f ∈ fields, f.2.Within S) :
    (namedTable fields).Within S := by
  induction fields using List.reverseRecOn with
  | nil => exact within_empty
  | append_singleton fields field ih =>
    rw [namedTable_append]
    exact (ih fun f hf => h f (by simp [hf])).setText _ (h field (by simp))

theorem Holds.entryFrom (h : t.Holds S) (fuel i : ℕ) {e : Key × Value}
    (he : t.entryFrom fuel i = some e) : e.1.toValue.Within S ∧ e.2.Within S := by
  induction fuel generalizing i with
  | zero => cases he
  | succ fuel ih =>
    cases hslot : t.slots[i]? with
    | none => simp [Table.entryFrom, hslot] at he
    | some slot =>
      simp only [Table.entryFrom, hslot] at he
      split at he
      · exact ih (i + 1) he
      · cases he
        exact h e (List.mem_of_getElem? ((Array.getElem?_toList ..).trans hslot))

/-- An iteration gives what the table holds. -/
theorem Holds.entryAfter (h : t.Holds S) (k : Option Key) {e : Key × Value}
    (he : t.entryAfter k = .ok (some e)) : e.1.toValue.Within S ∧ e.2.Within S := by
  cases k with
  | none => exact h.entryFrom _ _ (Except.ok.inj he)
  | some k =>
    simp only [Table.entryAfter] at he
    split at he
    · cases he
    · exact h.entryFrom _ _ (Except.ok.inj he)

end Table

end

end ScriptHost.Guest
