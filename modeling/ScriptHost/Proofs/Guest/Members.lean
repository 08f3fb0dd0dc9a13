import ScriptHost.Proofs.Guest.InAnyOrder

/-!
# The members of an object

A table that is not a sequence becomes an object. Each of its entries is put under the text of its key, so that a later
entry takes the place of an earlier one whose key has the same text.

* `NameMap.get?_foldl_insert`, `NameMap.length_toList_foldl_insert`: what is left of members that are put into a map.
* `convertEntries_append`: entries are converted one after the other.
* `object_has_every_entry`: an object has a member for each entry exactly if no two keys have the same text.
* `object_loses_entry`: the number `1` and the string `"1"` are keys of the same text.
-/

namespace ScriptHost

/-- The bytes of a text are read as the text. -/
@[simp] theorem Text.decodeLossy_toByteArray (s : String) : decodeLossy s.toByteArray = s := by
  have hvalid : String.fromUTF8? s.toByteArray = some s := dif_pos s.isValidUTF8
  rw [decodeLossy, hvalid]

/-! ## The last of one name -/

namespace NameMap

open Std

variable {β : Type}

/-- The last member of a name is the one that counts. -/
theorem get?_foldl_insert (members : List (String × β)) (name : String) :
    (members.foldl (fun m (k, v) => m.insert k v) (∅ : TreeMap String β)).get? name =
      members.reverse.lookup name := by
  induction members using List.reverseRecOn with
  | nil => exact get?_empty name
  | append_singleton members member ih =>
    obtain ⟨k, v⟩ := member
    rw [List.foldl_append, List.foldl_cons, List.foldl_nil, get?_insert, ih, List.reverse_append,
      List.reverse_singleton, List.singleton_append, List.lookup_cons]
    by_cases hname : k = name
    · rw [if_pos hname, hname, beq_self_eq_true]
    · rw [if_neg hname, beq_eq_false_iff_ne.mpr (Ne.symm hname)]

/-- As many members are left as there are names. -/
theorem length_toList_foldl_insert (members : List (String × β)) :
    (members.foldl (fun m (k, v) => m.insert k v) (∅ : TreeMap String β)).toList.length =
      (members.map Prod.fst).dedup.length := by
  set kept := (members.foldl (fun m (k, v) => m.insert k v) (∅ : TreeMap String β)).toList with hkept
  have hsorted : (kept.map Prod.fst).Nodup :=
    List.pairwise_map.mpr (TreeMap.ordered_keys_toList.imp fun hlt => (compare_lt_iff_lt.mp hlt).ne)
  have hnames : ∀ name, name ∈ kept.map Prod.fst ↔ name ∈ (members.map Prod.fst).dedup := by
    intro name
    have hlast : (∃ v, (name, v) ∈ kept) ↔ ∃ v, members.reverse.lookup name = some v := by
      simp only [hkept, mem_toList, get?_foldl_insert]
    have hsome : (∃ v, members.reverse.lookup name = some v) ↔ name ∈ members.map Prod.fst := by
      rw [← Option.isSome_iff_exists, ← not_iff_not, Bool.not_eq_true, Option.isSome_eq_false_iff, Option.isNone_iff_eq_none,
        List.lookup_eq_none_iff, List.mem_map, not_exists]
      simp only [List.mem_reverse, bne_iff_ne, not_and]
      exact forall₂_congr fun p _ => ne_comm
    have hmem : name ∈ kept.map Prod.fst ↔ ∃ v, (name, v) ∈ kept := by simp
    rw [hmem, hlast, hsome, List.mem_dedup]
  have hperm : (kept.map Prod.fst).Perm (members.map Prod.fst).dedup :=
    (List.perm_ext_iff_of_nodup hsorted (List.nodup_dedup _)).mpr hnames
  simpa using hperm.length_eq

/-- Where no two members have one name, each is the last of its name. -/
theorem lookup_reverse_of_nodup {front back : List (String × β)} {name : String} {v : β}
    (hnodup : ((front ++ (name, v) :: back).map Prod.fst).Nodup) :
    (front ++ (name, v) :: back).reverse.lookup name = some v := by
  have hlater : ∀ p ∈ back.reverse, name ≠ p.1 := by
    intro p hp heq
    rw [List.map_append, List.map_cons, List.nodup_append, List.nodup_cons] at hnodup
    refine hnodup.2.1.1 (List.mem_map.mpr ⟨p, List.mem_reverse.mp hp, heq.symm⟩)
  refine List.lookup_eq_some_iff.mpr ⟨back.reverse, front.reverse, by simp, fun p hp => ?_⟩
  simpa using hlater p hp

end NameMap

namespace Guest

variable {w w' : World} {c : Key → Value} {r : Ref} {n m left : ℕ} {path : List Ref} {members : List (String × Json)}
  {each : Value → RenderM Json}

/-! ## One entry after the other -/

theorem convertEntries_cons (e : Value × Value) (rest : List (Value × Value)) :
    convertEntries each (e :: rest) n w =
      match each e.2 n w with
      | ((j, n₁), w₁) =>
        match convertEntries each rest n₁ w₁ with
        | ((js, n₂), w₂) => (((e.1, j) :: js, n₂), w₂) := by
  obtain ⟨k, v⟩ := e
  rw [convertEntries, stateT_bind]
  rfl

/-- Entries are converted from where those before them have led to. -/
theorem convertEntries_append (front back : List (Value × Value)) :
    convertEntries each (front ++ back) n w =
      match convertEntries each front n w with
      | ((js, n₁), w₁) =>
        match convertEntries each back n₁ w₁ with
        | ((js', n₂), w₂) => ((js ++ js', n₂), w₂) := by
  induction front generalizing n w with
  | nil => rfl
  | cons e front ih =>
    rw [List.cons_append, convertEntries_cons, convertEntries_cons]
    rcases each e.2 n w with ⟨⟨j, n₁⟩, w₁⟩
    dsimp only
    rw [ih]
    rfl

/-- Converting changes no key. -/
theorem keys_convertEntries (each : Value → RenderM Json) (entries : List (Value × Value)) (n : ℕ) (w : World) :
    (convertEntries each entries n w).1.1.map Prod.fst = entries.map Prod.fst := by
  induction entries generalizing n w with
  | nil => rfl
  | cons e rest ih =>
    rw [convertEntries_cons]
    show e.1 :: _ = _
    rw [ih]
    rfl

/-- What entries are converted to, under the texts of their keys. -/
def named (converted : List (Value × Json)) : List (String × Json) := converted.map fun (k, j) => (k.keyText, j)

theorem names_convertEntries (each : Value → RenderM Json) (entries : List (Value × Value)) (n : ℕ) (w : World) :
    (named (convertEntries each entries n w).1.1).map Prod.fst = entries.map fun e => e.1.keyText := by
  have htexts := congrArg (List.map Value.keyText) (keys_convertEntries each entries n w)
  simpa [named, Function.comp_def] using htexts

/-- The entry in the middle is converted to what it is converted to after those before it. -/
theorem exists_of_convertEntries (each : Value → RenderM Json) (front back : List (Value × Value)) (e : Value × Value)
    (n : ℕ) (w : World) :
    ∃ js n₁ w₁ j n₂ w₂ js', convertEntries each front n w = ((js, n₁), w₁) ∧ each e.2 n₁ w₁ = ((j, n₂), w₂) ∧
      (convertEntries each (front ++ e :: back) n w).1.1 = js ++ (e.1, j) :: js' := by
  rcases hfront : convertEntries each front n w with ⟨⟨js, n₁⟩, w₁⟩
  rcases hvalue : each e.2 n₁ w₁ with ⟨⟨j, n₂⟩, w₂⟩
  refine ⟨js, n₁, w₁, j, n₂, w₂, (convertEntries each back n₂ w₂).1.1, rfl, hvalue, ?_⟩
  rw [convertEntries_append, hfront]
  dsimp only
  rw [convertEntries_cons, hvalue]
  rfl

/-- Only what is no sequence becomes an object. -/
theorem eq_of_readJson {entries : List (Value × Value)} {size : ℕ} {converted : List (Value × Json)}
    (h : readJson entries size converted = .obj members) :
    members = ((named converted).foldl (fun m (k, v) => m.insert k v) (∅ : Std.TreeMap String Json)).toList := by
  rw [readJson] at h
  cases hsequence : isSequence entries size with
  | true =>
    rw [hsequence, if_pos rfl] at h
    cases h
  | false =>
    rw [hsequence, if_neg Bool.false_ne_true] at h
    exact (Json.obj.inj h).symm

/-! ## Tables that become objects -/

/-- A table that is not read as a sequence becomes an object. -/
theorem exists_members (left : ℕ) (hr : r ∉ path) (hroom : n < 4096) (ht : (w.guest.table r).Stores c)
    (hsmall : (w.guest.table r).entries.length ≤ 10000)
    (hsequence : ∀ size, isSequence ((w.guest.table r).entries.map fun e => (e.1.toValue, e.2)) size = false) :
    ∃ members m w', convert (left + 1) path (.table r) n w = ((.obj members, m), w') := by
  rw [convert_of_table hr (Nat.not_le.mpr hroom) left (visibleEntries_plain ht hsmall)]
  dsimp only
  rw [convertRead_eq rfl]
  simp only [readJson, hsequence, Bool.false_eq_true, if_false]
  exact ⟨_, _, _, rfl⟩

theorem convertEntries_scalars (left : ℕ) {entries : List (Value × Value)}
    (hscalars : ∀ e ∈ entries, ∀ q, e.2 ≠ .table q) :
    convertEntries (convert left path) entries n w = ((entries.map fun e => (e.1, scalarJson e.2), n), w) := by
  induction entries with
  | nil => rfl
  | cons e rest ih =>
    obtain ⟨he, hrest⟩ := List.forall_mem_cons.mp hscalars
    rw [convertEntries_cons, convert_of_scalar he]
    dsimp only
    rw [ih hrest]
    rfl

/-- Of a table whose values are no tables, each is put under the text of its key. -/
theorem toJson_scalars (ht : (w.guest.table r).Stores c) (hsmall : (w.guest.table r).entries.length ≤ 10000)
    (hscalars : ∀ e ∈ (w.guest.table r).entries, ∀ q, e.2 ≠ .table q)
    (hsequence : ∀ size, isSequence ((w.guest.table r).entries.map fun e => (e.1.toValue, e.2)) size = false) :
    toJson (.table r) w =
      (.ofMembers ((w.guest.table r).entries.map fun e => (e.1.toValue.keyText, scalarJson e.2)), w) := by
  have hread : ∀ e ∈ (w.guest.table r).entries.map (fun e => (e.1.toValue, e.2)), ∀ q, e.2 ≠ .table q := by
    intro e he q
    obtain ⟨e', he', rfl⟩ := List.mem_map.mp he
    exact hscalars e' he' q
  refine toJson_of_convert (n := 1) ?_
  rw [maxNesting, convert_of_table List.not_mem_nil (by decide) 15 (visibleEntries_plain ht hsmall)]
  dsimp only
  rw [convertRead_eq (convertEntries_scalars 15 hread)]
  simp only [readJson, hsequence, Bool.false_eq_true, if_false, List.map_map, Function.comp_def]

/-- A world of tables with some entries. -/
def packed (tables : List (List (Key × Value))) : World :=
  { guest := { tables := (tables.map (Table.arrange 0)).toArray } }

section

variable (tables : List (List (Key × Value))) (q : Ref)

theorem table_packed :
    (packed tables).guest.table q = Table.arrange 0 ((tables[q]?).getD []) := by
  rw [Heap.table, packed, List.getElem?_toArray, List.getElem?_map]
  cases tables[q]? <;> rfl

theorem stores_packed (hkeyed : ∀ e ∈ (tables[q]?).getD [], e.1.toValue.toKey? = some e.1) :
    ((packed tables).guest.table q).Stores (contents (packed tables) q) := by
  rw [contents, table_packed]
  exact Table.stores_arrange (by decide) fun e he => ⟨_, hkeyed e he⟩

theorem entries_packed (hkeyed : ∀ e ∈ (tables[q]?).getD [], e.1.toValue.toKey? = some e.1)
    (hnodup : (((tables[q]?).getD []).map Prod.fst).Nodup) (hvalues : ∀ e ∈ (tables[q]?).getD [], e.2.isNil = false) :
    ((packed tables).guest.table q).entries = (tables[q]?).getD [] := by
  rw [table_packed]
  exact Table.entries_arrange (by decide) (fun e he => ⟨_, hkeyed e he⟩) hnodup hvalues

end

/-- Keys of many kinds, and values. -/
def mixedEntries : List (Key × Value) :=
  [(.bool true, .int 1), (.int 5, .table 0), (.str "name".toUTF8, .bool false), (.native .idle, .int 2), (.table 0, .int 3)]

/-- A number and a string that writes it, as keys of the same value. -/
def clashingEntries : List (Key × Value) := [(.int 1, .int 7), (.str "1".toUTF8, .int 7)]

/-! ## The members of an object -/

/-- **An object has a member for each entry** of a table without a metatable exactly if no two keys have the same text.
If so, there is one value under the text of each key: what the entry's value is converted to after the entries before
it. -/
theorem object_has_every_entry (hr : r ∉ path) (hroom : n < 4096) (ht : (w.guest.table r).Stores c)
    (hsmall : (w.guest.table r).entries.length ≤ 10000)
    (hobject : convert (left + 1) path (.table r) n w = ((.obj members, m), w')) :
    (members.length = (w.guest.table r).entries.length ↔
      ((w.guest.table r).entries.map fun e => e.1.toValue.keyText).Nodup) ∧
    (((w.guest.table r).entries.map fun e => e.1.toValue.keyText).Nodup →
      ∀ before e after, (w.guest.table r).entries = before ++ e :: after → ∃ converted n₁ w₁ j n₂ w₂,
        convertEntries (convert left (r :: path)) (before.map fun e => (e.1.toValue, e.2)) (n + 1) w =
          ((converted, n₁), w₁) ∧
        convert left (r :: path) e.2 n₁ w₁ = ((j, n₂), w₂) ∧
        ∀ j', (e.1.toValue.keyText, j') ∈ members ↔ j' = j) := by
  set entries := (w.guest.table r).entries
  set read := entries.map fun e => (e.1.toValue, e.2) with hread
  -- the members are what is left of the entries when they all have been put under their names
  have hmembers : members = ((named (convertEntries (convert left (r :: path)) read (n + 1) w).1.1).foldl
      (fun m (k, v) => m.insert k v) (∅ : Std.TreeMap String Json)).toList := by
    rw [convert_of_table hr (Nat.not_le.mpr hroom) left (visibleEntries_plain ht hsmall)] at hobject
    dsimp only at hobject
    rw [convertRead_eq rfl] at hobject
    exact eq_of_readJson (congrArg (fun s => s.1.1) hobject)
  have hnames := names_convertEntries (convert left (r :: path)) read (n + 1) w
  have htexts : (read.map fun e => e.1.keyText) = entries.map fun e => e.1.toValue.keyText := by
    simp [hread]
  rw [htexts] at hnames
  constructor
  · have hcount : entries.length = (entries.map fun e => e.1.toValue.keyText).length := (List.length_map _).symm
    rw [hmembers, NameMap.length_toList_foldl_insert, hnames, hcount]
    constructor
    · intro hsame
      rw [← List.dedup_eq_self]
      exact (List.dedup_sublist _).eq_of_length hsame
    · intro hnodup
      rw [hnodup.dedup]
  · intro hnodup before e after hsplit
    obtain ⟨js, n₁, w₁, j, n₂, w₂, js', hfront, hvalue, hall⟩ := exists_of_convertEntries
      (convert left (r :: path)) (before.map fun e => (e.1.toValue, e.2)) (after.map fun e => (e.1.toValue, e.2))
      (e.1.toValue, e.2) (n + 1) w
    refine ⟨js, n₁, w₁, j, n₂, w₂, hfront, hvalue, fun j' => ?_⟩
    have hparts : named (convertEntries (convert left (r :: path)) read (n + 1) w).1.1 =
        named js ++ (e.1.toValue.keyText, j) :: named js' := by
      rw [hread, hsplit, List.map_append, List.map_cons, hall]
      simp [named]
    rw [← hnames, hparts] at hnodup
    rw [hmembers, NameMap.mem_toList, NameMap.get?_foldl_insert, hparts, NameMap.lookup_reverse_of_nodup hnodup,
      Option.some.injEq, eq_comm]

/-- Five keys of five kinds have five members. -/
theorem object_has_every_entry_mixed :
    ((packed [mixedEntries]).guest.table 0).Stores (contents (packed [mixedEntries]) 0) ∧
      ∃ members m w', convert 16 [] (.table 0) 0 (packed [mixedEntries]) = ((.obj members, m), w') ∧
        members.length = 5 := by
  have hstores := stores_packed [mixedEntries] 0 (by decide)
  have hentries : ((packed [mixedEntries]).guest.table 0).entries = mixedEntries :=
    entries_packed _ _ (by decide) (by decide) (by decide)
  have hsmall : ((packed [mixedEntries]).guest.table 0).entries.length ≤ 10000 := by
    rw [hentries]
    decide
  obtain ⟨members, m, w', hobject⟩ := exists_members (n := 0) 15 List.not_mem_nil (by decide) hstores hsmall
    fun size => by
      rw [hentries]
      simp [mixedEntries, isSequence, Key.toValue, sequencePlace?]
  obtain ⟨hlength, -⟩ := object_has_every_entry List.not_mem_nil (by decide) hstores hsmall hobject
  refine ⟨hstores, members, m, w', hobject, ?_⟩
  rw [hentries] at hlength
  exact hlength.mpr (by simp [mixedEntries, Key.toValue, Value.keyText, Value.display, Value.isNil]; decide)

/-- Two keys of one text have one member: of the two entries one is not shown. -/
theorem object_loses_entry :
    ((packed [clashingEntries]).guest.table 0).Stores (contents (packed [clashingEntries]) 0) ∧
      ∃ members, toJson (.table 0) (packed [clashingEntries]) = (.obj members, packed [clashingEntries]) ∧
        members.length ≠ ((packed [clashingEntries]).guest.table 0).entries.length := by
  have hstores := stores_packed [clashingEntries] 0 (by decide)
  have hentries : ((packed [clashingEntries]).guest.table 0).entries = clashingEntries :=
    entries_packed _ _ (by decide) (by decide) (by decide)
  have hsmall : ((packed [clashingEntries]).guest.table 0).entries.length ≤ 10000 := by
    rw [hentries]
    decide
  have hscalars : ∀ e ∈ ((packed [clashingEntries]).guest.table 0).entries, ∀ q, e.2 ≠ .table q := by
    rw [hentries]
    simp [clashingEntries]
  have hjson := toJson_scalars hstores hsmall hscalars fun size => by
    rw [hentries]
    simp [clashingEntries, isSequence, Key.toValue, sequencePlace?]
  have htexts : clashingEntries.map (fun e => (e.1.toValue.keyText, scalarJson e.2)) = [("1", .int 7), ("1", .int 7)] := by
    have hone : Int.repr 1 = "1" := rfl
    simp [clashingEntries, Key.toValue, Value.keyText, Value.display, Value.isNil, scalarJson, hone]
  rw [hentries, htexts] at hjson
  refine ⟨hstores, _, hjson, ?_⟩
  rw [hentries, NameMap.length_toList_foldl_insert]
  decide

end Guest
end ScriptHost
