import ScriptHost.Proofs.Guest.Conversion
import ScriptHost.Proofs.Guest.Mirrors
import ScriptHost.Proofs.Guest.Rendering
import ScriptHost.Proofs.Guest.Stored

/-!
# Conversion in any order

A table can be stored in many ways, and its entries are read in the order in which they are stored. Within the limits,
the conversion of a value whose tables have no metatables gives the JSON of what the tables hold.

* `Stores`: a world in which the tables that a value leads to hold some contents.
* `visibleEntries_take`, `visibleEntries_plain`: what is read of a table without a metatable.
* `Table.Stores.numbered_of_isSequence`, `Table.Stores.isSequence_of_numbered`: a table is a sequence if its keys are
  the numbers from one on.
* `Table.Stores.json_of_numbered`, `Table.Stores.json_of_named`: the JSON of a table, from that of its entries.
* `Offers`: a table at which is read what some table stores.
* `Renders.convert_offers`, `Renders.convert_eq`: a conversion within some tables gives the JSON.
* `Stores.exists_arranged`: the entries of all tables in any order.
* `conversion_renders`: a whole conversion, in any order.
-/

namespace ScriptHost.Guest

/-- In a world, the tables that a value leads to hold what `C` says. -/
def Stores (w : World) (C : Ref → Key → Value) (v : Value) : Prop :=
  ∀ r, Leads C v r → (w.guest.table r).Stores (C r)

variable {w : World} {C : Ref → Key → Value} {c : Key → Value} {t : Table} {v : Value} {r : Ref} {n : ℕ}
  {path : List Ref} {j : Json} {shown : Key → Json}

/-! ## Reading -/

theorem callGuestFunction_values {f : Native} {args vs : List Value}
    (h : ∀ context, f.apply args context w = (.ok (.values vs), w)) :
    callGuestFunction (.native f) args w = (.ok vs, w) := by
  rw [callGuestFunction, callFunction_values h]

theorem callGuestFunction_next {k : Value} {vs : List Value}
    (hnext : ∀ context, Library.nextEntry r k context w = (.ok (.values vs), w)) :
    callGuestFunction (.native (.base .next)) [.table r, k] w = (.ok vs, w) := by
  have happly : ∀ context, (Native.base .next).apply [.table r, k] context w = (.ok (.values vs), w) := hnext
  exact callGuestFunction_values happly

/-- When `next` gives the first entry from a place on, the iteration goes on to find as many as there is room for. -/
theorem iterate_take (hi : (w.guest.table r).Indexed) (hkeyed : (w.guest.table r).Keyed)
    (es : List (Key × Value)) {i : ℕ} (hes : (w.guest.table r).entriesFrom i = es) {k : Value}
    (hnext : ∀ context, Library.nextEntry r k context w = (.ok (.values (entryValues es.head?)), w))
    (found : List (Value × Value)) (left : ℕ) :
    iterate (.native (.base .next)) (.table r) found left k w =
      (.ok (found.reverse ++ (es.take left).map fun e => (e.1.toValue, e.2)), w) := by
  induction es generalizing i k found left with
  | nil =>
    rw [List.take_nil, List.map_nil, List.append_nil]
    cases left with
    | zero => rfl
    | succ left =>
      rw [iterate, worldM_bind, callGuestFunction_next hnext]
      rfl
  | cons e es ih =>
    cases left with
    | zero =>
      rw [List.take_zero, List.map_nil, List.append_nil]
      rfl
    | succ left =>
      -- after the first entry `next` gives the one that follows it
      obtain ⟨j, hrest, hafter⟩ := exists_nextEntry hi hkeyed hes
      have hfound := ih hrest hafter ((e.1.toValue, e.2) :: found) left
      rw [iterate, worldM_bind, callGuestFunction_next hnext]
      simp only [entryValues, List.head?_cons, List.headD_cons, e.1.isNil_toValue, Bool.false_eq_true, if_false,
        List.drop_succ_cons, List.drop_zero]
      rw [hfound, List.reverse_cons, List.append_assoc, List.take_succ_cons, List.map_cons, List.singleton_append]

/-- Where there is room for all entries, all of them are found. -/
theorem iterate_entries (hi : (w.guest.table r).Indexed) (hkeyed : (w.guest.table r).Keyed)
    (es : List (Key × Value)) {i : ℕ} (hes : (w.guest.table r).entriesFrom i = es) {k : Value}
    (hnext : ∀ context, Library.nextEntry r k context w = (.ok (.values (entryValues es.head?)), w))
    (found : List (Value × Value)) {left : ℕ} (hroom : es.length ≤ left) :
    iterate (.native (.base .next)) (.table r) found left k w =
      (.ok (found.reverse ++ es.map fun e => (e.1.toValue, e.2)), w) := by
  rw [iterate_take hi hkeyed es hes hnext, List.take_of_length_le hroom]

/-- Of a table without a metatable, the first entries are read in the order in which they are stored. Its length is
that of the whole table, however many of its entries are read. -/
theorem visibleEntries_take (ht : (w.guest.table r).Stores c) :
    visibleEntries (.table r) w =
      (.ok (((w.guest.table r).entries.take maxEntries).map fun e => (e.1.toValue, e.2),
        (Int64.ofNat (w.guest.table r).border).toInt.toNat), w) := by
  have hmeta (event : String) : w.guest.metamethod (.table r) event = .nil :=
    Heap.metamethod_plain ht.metatable event
  have hpairs : callGuestFunction (.native (.base .pairs)) [.table r] w =
      (.ok [.native (.base .next), .table r, .nil], w) :=
    callGuestFunction_values fun context => (base_pairs (.table r) context).trans (by rw [hmeta]; rfl)
  have hentries := iterate_take ht.indexed ht.keyed _ (i := 0) rfl nextEntry_first [] maxEntries
  have hlength : runNative (lengthOf (.table r)) w = (.ok (Int64.ofNat (w.guest.table r).border), w) := by
    unfold runNative lengthOf
    simp only [Looks.bind_eq, getHeap, hmeta]
    rfl
  rw [visibleEntries, worldM_bind, hpairs]
  have hnext : (Value.native (.base .next)).takeFunction = .ok (.native (.base .next)) := rfl
  simp only [List.headD_cons, hnext, List.drop_succ_cons, List.drop_zero]
  rw [worldM_bind, hentries]
  dsimp only
  rw [worldM_bind, hlength]
  rfl

/-- Of a table without a metatable that has few enough entries, all of them are read. -/
theorem visibleEntries_plain (ht : (w.guest.table r).Stores c)
    (hroom : (w.guest.table r).entries.length ≤ maxEntries) :
    visibleEntries (.table r) w =
      (.ok ((w.guest.table r).entries.map fun e => (e.1.toValue, e.2),
        (Int64.ofNat (w.guest.table r).border).toInt.toNat), w) := by
  rw [visibleEntries_take ht, List.take_of_length_le hroom]

/-- What is read at a table in a world is what `t` stores: the table itself, or one that stands behind it. -/
structure Offers (w : World) (r : Ref) (c : Key → Value) (t : Table) : Prop where
  stores : t.Stores c
  read : t.entries.length ≤ maxEntries → visibleEntries (.table r) w =
    (.ok (t.entries.map fun e => (e.1.toValue, e.2), (Int64.ofNat t.border).toInt.toNat), w)

theorem offers_plain (ht : (w.guest.table r).Stores c) : Offers w r c (w.guest.table r) := ⟨ht, visibleEntries_plain ht⟩

/-! ## Shapes -/

/-- The place of a key in a sequence is that which it has among the numbers. -/
theorem sequencePlace?_eq_some (hn : n ≤ Table.maxKey) {k : Key} {i : ℕ} :
    sequencePlace? n k.toValue = some i ↔ (places n)[i]? = some k := by
  rw [places, List.getElem?_map]
  constructor
  · intro hplace
    obtain ⟨i', hk, hlow, hhigh, hi⟩ := exists_place (Option.isSome_of_eq_some hplace)
    obtain rfl : k = .int i' := by cases k <;> cases hk; rfl
    obtain rfl := Option.some.inj (hi.symm.trans hplace)
    have hlt : (i'.toInt - 1).toNat < n := by omega
    have hint := toInt_place (Nat.lt_of_lt_of_le hlt hn)
    rw [List.getElem?_range hlt, Option.map_some, Option.some.injEq, Key.int.injEq]
    exact Int64.toInt_inj.mp (by omega)
  · intro hkey
    obtain ⟨i', hi', rfl⟩ := Option.map_eq_some_iff.mp hkey
    obtain ⟨hlt, rfl⟩ := List.getElem?_eq_some_iff.mp hi'
    rw [List.length_range] at hlt
    have hint := toInt_place (Nat.lt_of_lt_of_le hlt hn)
    rw [List.getElem_range, Key.toValue, sequencePlace?, hint, if_pos (by simp; omega)]
    congr 1

/-- To write items to their places gives them in the order of the places, in whatever order they come. -/
theorem foldl_places (hn : n ≤ Table.maxKey) (keys : List Key) (items : Array Json) (hsize : items.size = n) {k : Key}
    {i : ℕ} (hplace : (places n)[i]? = some k) (hcomes : k ∈ keys ∨ items[i]? = some (shown k)) :
    (keys.foldl (fun items k =>
      match sequencePlace? n k.toValue with
      | some i => items.set! i (shown k)
      | none => items) items)[i]? = some (shown k) := by
  induction keys generalizing items with
  | nil => exact hcomes.resolve_left List.not_mem_nil
  | cons k' keys ih =>
    rw [List.foldl_cons]
    cases hplace' : sequencePlace? n k'.toValue with
    | none =>
      refine ih items hsize (hcomes.imp_left fun hmem => (List.mem_cons.mp hmem).resolve_left ?_)
      rintro rfl
      rw [(sequencePlace?_eq_some hn).mpr hplace] at hplace'
      cases hplace'
    | some i' =>
      -- the item that is written is what its place is to hold, so that it does not matter which one is written last
      have hkey' := (sequencePlace?_eq_some hn).mp hplace'
      refine ih (items.set! i' (shown k')) (by simpa using hsize) ?_
      by_cases hii : i' = i
      · subst hii
        obtain rfl := Option.some.inj (hplace.symm.trans hkey')
        have hlt : i' < n := by simpa using (List.getElem?_eq_some_iff.mp hplace).1
        exact .inr (by simp [hsize, hlt])
      · refine hcomes.imp (fun hmem => (List.mem_cons.mp hmem).resolve_left ?_) fun hitem => ?_
        · rintro rfl
          exact hii (Option.some.inj (hplace'.symm.trans ((sequencePlace?_eq_some hn).mpr hplace)))
        · simpa [hii] using hitem

theorem size_foldl_places (entries : List (Value × Json)) (items : Array Json) :
    (entries.foldl (fun items (k, j) =>
      match sequencePlace? n k with
      | some i => items.set! i j
      | none => items) items).size = items.size := by
  induction entries generalizing items with
  | nil => rfl
  | cons e entries ih =>
    rw [List.foldl_cons, ih]
    dsimp only
    split
    · exact Array.size_setIfInBounds
    · rfl

/-- The items of a sequence stand in the order of the numbers. -/
theorem sequenceJson_eq (hn : n ≤ Table.maxKey) {keys : List Key} (hkeys : places n ⊆ keys) :
    sequenceJson n (keys.map fun k => (k.toValue, shown k)) = .arr ((places n).map shown) := by
  refine congrArg Json.arr (List.ext_getElem? fun i => ?_)
  rw [Array.getElem?_toList, List.getElem?_map]
  cases hplace : (places n)[i]? with
  | none =>
    rw [List.getElem?_eq_none_iff, length_places] at hplace
    have hsize := (size_foldl_places (n := n) (keys.map fun k => (k.toValue, shown k)) (.replicate n .null)).trans
      Array.size_replicate
    exact Array.getElem?_eq_none (Nat.le_trans (Nat.le_of_eq hsize) hplace)
  | some k =>
    rw [List.foldl_map]
    exact foldl_places hn keys _ Array.size_replicate hplace (.inl (hkeys (List.mem_of_getElem? hplace)))

namespace Table.Stores

theorem perm (ht : t.Stores c) (hn : Numbered c n) : (t.entries.map Prod.fst).Perm (places n) :=
  hn.perm ht.indexed.nodup_entries ht.mem_keys

theorem length_entries (ht : t.Stores c) (hn : Numbered c n) : t.entries.length = n := by
  simpa using (ht.perm hn).length_eq

/-- The length of a numbered table is its last number. -/
theorem border_eq (ht : t.Stores c) (hn : Numbered c n) : (Int64.ofNat t.border).toInt.toNat = n := by
  have hlast : (Int64.ofNat n).toInt = n := by
    have hsmall := hn.small
    exact Int64.toInt_ofNat_of_lt (by simp only [maxKey] at hsmall; omega)
  have hsequence : t.Sequence (Int64.ofNat n) :=
    { nonneg := by
        rw [Int64.le_iff_toInt_le, hlast]
        exact Int.natCast_nonneg n
      has := fun i hi => by
        rw [Int64.lt_iff_toInt_lt] at hi
        have hlow : 1 ≤ i.toInt := hi
        rw [getInt, ht.get, hn.has, mem_places hn.small, Int64.le_iff_toInt_le, hlast]
        constructor
        · rintro ⟨i', heq, -, hle⟩
          rwa [Key.int.inj heq]
        · exact fun hle => ⟨i, rfl, hlow, hle⟩ }
  rw [hsequence.border_of_hint ht.hint, hlast]
  rfl

/-- A table is read as a sequence only if its keys are the numbers up to its length: as many keys as there are
numbers, all of them among the numbers. -/
theorem numbered_of_isSequence (ht : t.Stores c) {size : ℕ} (hsize : size ≤ maxKey)
    (hseq : isSequence (t.entries.map fun e => (e.1.toValue, e.2)) size = true) : Numbered c size := by
  have hpos : 0 < size := by
    rw [isSequence, Bool.and_eq_true, Bool.and_eq_true, decide_eq_true_eq] at hseq
    exact hseq.1.1
  obtain ⟨hlength, hplaces⟩ := isSequence_places hseq
  rw [List.length_map] at hlength
  have hsubset : t.entries.map Prod.fst ⊆ places size := by
    intro k hk
    obtain ⟨e, he, rfl⟩ := List.mem_map.mp hk
    obtain ⟨i, hi⟩ := Option.isSome_iff_exists.mp (hplaces _ (List.mem_map_of_mem he))
    exact List.mem_of_getElem? ((sequencePlace?_eq_some hsize).mp hi)
  have hperm : (t.entries.map Prod.fst).Perm (places size) :=
    (List.subperm_of_subset ht.indexed.nodup_entries hsubset).perm_of_length_le (by simp [hlength])
  exact ⟨hpos, hsize, fun k => (ht.mem_keys k).symm.trans hperm.mem_iff⟩

theorem isSequence_of_numbered (ht : t.Stores c) (hn : Numbered c n) :
    isSequence (t.entries.map fun e => (e.1.toValue, e.2)) n = true := by
  rw [isSequence, Bool.and_eq_true, Bool.and_eq_true, decide_eq_true_eq, beq_iff_eq, List.length_map,
    List.all_eq_true]
  refine ⟨⟨hn.pos, ht.length_entries hn⟩, fun read hread => ?_⟩
  obtain ⟨e, he, rfl⟩ := List.mem_map.mp hread
  have hplace : e.1 ∈ places n := (ht.perm hn).mem_iff.mp (List.mem_map_of_mem he)
  obtain ⟨i, hi⟩ := List.getElem?_of_mem hplace
  exact Option.isSome_of_eq_some ((sequencePlace?_eq_some hn.small).mpr hi)

end Table.Stores

/-- The JSON of what was read of a table, once its entries are converted. -/
def readJson (entries : List (Value × Value)) (size : ℕ) (converted : List (Value × Json)) : Json :=
  if isSequence entries size then sequenceJson size converted
  else .ofMembers (converted.map fun (k, j) => (k.keyText, j))

/-- The JSON of a table, from that of its entries. -/
def Table.json (t : Table) (shown : Key → Json) : Json :=
  readJson (t.entries.map fun e => (e.1.toValue, e.2)) (Int64.ofNat t.border).toInt.toNat
    ((t.entries.map Prod.fst).map fun k => (k.toValue, shown k))

namespace Table.Stores

theorem json_of_numbered (ht : t.Stores c) (hn : Numbered c n) : t.json shown = .arr ((places n).map shown) := by
  rw [Table.json, readJson, ht.border_eq hn, if_pos (ht.isSequence_of_numbered hn)]
  exact sequenceJson_eq hn.small (ht.perm hn).symm.subset

/-- Sorted members that stand for the entries are as many. -/
theorem perm_members (ht : t.Stores c)
    (hnames : ∀ k k', (c k).isNil = false → (c k').isNil = false → k.toValue.keyText = k'.toValue.keyText → k = k')
    {members : List (String × Json)} (hsorted : members.Pairwise fun a b => a.1 < b.1)
    (hmembers : ∀ name j, (name, j) ∈ members ↔ ∃ k, (c k).isNil = false ∧ k.toValue.keyText = name ∧ shown k = j) :
    ((t.entries.map Prod.fst).map fun k => (k.toValue.keyText, shown k)).Perm members := by
  have hnodup : ((t.entries.map Prod.fst).map fun k => (k.toValue.keyText, shown k)).Nodup :=
    ht.indexed.nodup_entries.map_on fun k hk k' hk' heq =>
      hnames k k' ((ht.mem_keys k).mp hk) ((ht.mem_keys k').mp hk') (congrArg Prod.fst heq)
  refine (List.perm_ext_iff_of_nodup hnodup (.of_map _ (nodup_names hsorted))).mpr fun e => ?_
  rw [List.mem_map, show e ∈ members ↔ _ from hmembers e.1 e.2]
  refine exists_congr fun k => and_congr (ht.mem_keys k) ?_
  rw [Prod.ext_iff]

/-- A table that is not numbered has its entries as members, sorted by their names. -/
theorem json_of_named (ht : t.Stores c) (hn : ∀ n, ¬ Numbered c n)
    {members : List (String × Json)} (hsorted : members.Pairwise fun a b => a.1 < b.1)
    (hperm : ((t.entries.map Prod.fst).map fun k => (k.toValue.keyText, shown k)).Perm members) :
    t.json shown = .obj members := by
  have hseq : ¬ isSequence (t.entries.map fun e => (e.1.toValue, e.2)) (Int64.ofNat t.border).toInt.toNat = true :=
    fun hseq => hn _ (ht.numbered_of_isSequence (toNatClampNeg_le_maxKey _) hseq)
  have hdistinct : ∀ a ∈ members, ∀ b ∈ members, a.1 = b.1 → a = b := fun a ha b hb =>
    List.inj_on_of_nodup_map (nodup_names hsorted) ha hb
  rw [Table.json, readJson, if_neg hseq, List.map_map]
  obtain ⟨sorted, heq, hsorted', hsame⟩ := ofMembers_eq fun a ha b hb =>
    hdistinct a (hperm.mem_iff.mp ha) b (hperm.mem_iff.mp hb)
  exact heq.trans (congrArg Json.obj (eq_of_sorted hsorted' hsorted fun e => (hsame e).trans hperm.mem_iff))

end Table.Stores

/-! ## Conversion -/

/-- What comes of an entry is its JSON, and its tables are counted. -/
theorem convertEntries_eq {convert : Value → RenderM Json} (es : List (Key × Value))
    (hconvert : ∀ e ∈ es, ∀ n, n + (shown e.1).containers ≤ maxTables →
      convert e.2 n w = ((shown e.1, n + (shown e.1).containers), w))
    (hroom : n + ((es.map Prod.fst).map fun k => (shown k).containers).sum ≤ maxTables) :
    convertEntries convert (es.map fun e => (e.1.toValue, e.2)) n w =
      (((es.map Prod.fst).map fun k => (k.toValue, shown k),
        n + ((es.map Prod.fst).map fun k => (shown k).containers).sum), w) := by
  induction es generalizing n with
  | nil => rfl
  | cons e es ih =>
    obtain ⟨hfirst, hrest⟩ := List.forall_mem_cons.mp hconvert
    rw [List.map_cons, List.map_cons, List.sum_cons] at hroom
    rw [List.map_cons, convertEntries, stateT_bind, hfirst n (by omega)]
    dsimp only
    rw [stateT_bind, ih hrest (by omega), List.map_cons, List.map_cons, List.map_cons, List.sum_cons, Nat.add_assoc]
    rfl

theorem convertRead_eq {convert : Value → RenderM Json} {entries : List (Value × Value)} {size m : ℕ}
    {converted : List (Value × Json)} {w' : World}
    (hconverted : convertEntries convert entries n w = ((converted, m), w')) :
    convertRead convert entries size n w = ((readJson entries size converted, m), w') := by
  rw [convertRead, stateT_bind, hconverted, readJson]
  dsimp only
  cases isSequence entries size <;> rfl

/-- A table within the limits is converted as its entries are: there is room for it and for all that is in them, and
none of its entries stays unread. -/
theorem convert_of_parts (hr : r ∉ path) (ht : Offers w r c t) {parts : List Json}
    (hcontainer : j.Container parts) (hparts : ((t.entries.map Prod.fst).map shown).Perm parts)
    (hjson : t.json shown = j) {left : ℕ} (hleft : j.nesting ≤ left) (hwide : j.widest ≤ maxEntries)
    (hroom : n + j.containers ≤ maxTables)
    (hconvert : ∀ k, (c k).isNil = false → ∀ left n, (shown k).nesting ≤ left → (shown k).widest ≤ maxEntries →
      n + (shown k).containers ≤ maxTables →
        convert left (r :: path) (c k) n w = ((shown k, n + (shown k).containers), w)) :
    convert left path (.table r) n w = ((j, n + j.containers), w) := by
  have hpos := hcontainer.nesting_pos
  obtain ⟨left, rfl⟩ : ∃ deeper, left = deeper + 1 := ⟨left - 1, by omega⟩
  -- the parts are the JSON values of the entries, in another order, so that they count and measure the same
  have hcount : j.containers = ((t.entries.map Prod.fst).map fun k => (shown k).containers).sum + 1 := by
    rw [hcontainer.containers_eq, ← (hparts.map _).sum_eq, List.map_map]
    rfl
  have hlength : t.entries.length ≤ maxEntries := by
    have hsame := hparts.length_eq
    rw [List.length_map, List.length_map] at hsame
    have hle := hcontainer.length_le
    omega
  have hvalues : ∀ e ∈ t.entries, ∀ m, m + (shown e.1).containers ≤ maxTables →
      convert left (r :: path) e.2 m w = ((shown e.1, m + (shown e.1).containers), w) := by
    intro e he m hm
    have hentry := (ht.stores.mem_keys e.1).mp (List.mem_map_of_mem he)
    have hpart : shown e.1 ∈ parts := hparts.mem_iff.mp (List.mem_map_of_mem (List.mem_map_of_mem he))
    have hnested := hcontainer.nesting_lt hpart
    have hnarrow := hcontainer.widest_le hpart
    rw [ht.stores.eq_of_mem he]
    exact hconvert e.1 hentry left m (by omega) (by omega) hm
  have hentries := convertEntries_eq (n := n + 1) t.entries hvalues (by omega)
  rw [convert_of_table hr (by omega) left (ht.read hlength)]
  dsimp only
  rw [convertRead_eq hentries, show readJson _ _ _ = j from hjson, hcount, Nat.add_assoc n 1, Nat.add_comm 1]

theorem containers_scalarJson (v : Value) : (scalarJson v).containers = 0 := by
  cases v <;> rfl

/-- Within the limits, a conversion gives the JSON of what is read at the tables. -/
theorem Renders.convert_offers (h : Renders C path v j) (hw : ∀ r, Leads C v r → ∃ t, Offers w r (C r) t)
    (hnames : DistinctNames C v) {left : ℕ} (hleft : j.nesting ≤ left) (hwide : j.widest ≤ maxEntries)
    (hroom : n + j.containers ≤ maxTables) : convert left path v n w = ((j, n + j.containers), w) := by
  -- the induction is on the JSON of the value, with the room that is left for the tables after it
  induction h generalizing left n with
  | scalar hv =>
    rw [containers_scalarJson]
    exact convert_of_scalar hv left n w
  | cycle hr => exact convert_of_cycle hr left n w
  | @array path r last shown hr hn hshown ih =>
    obtain ⟨t, ht⟩ := hw r (.self r)
    exact convert_of_parts hr ht (.arr _) ((ht.stores.perm hn).map shown) (ht.stores.json_of_numbered hn) hleft hwide
      hroom fun k hk left n => ih k hk (fun s hs => hw s (.entry k hs)) fun s hs => hnames s (.entry k hs)
  | @object path r members shown hr hn hshown hsorted hmembers ih =>
    obtain ⟨t, ht⟩ := hw r (.self r)
    have hperm := ht.stores.perm_members (hnames r (.self r)) hsorted hmembers
    have hparts := hperm.map Prod.snd
    rw [List.map_map] at hparts
    exact convert_of_parts hr ht (.obj members) hparts (ht.stores.json_of_named hn hsorted hperm) hleft hwide hroom
      fun k hk left n => ih k hk (fun s hs => hw s (.entry k hs)) fun s hs => hnames s (.entry k hs)

/-- Within the limits, a conversion gives the JSON of what the tables hold. -/
theorem Renders.convert_eq (h : Renders C path v j) (hw : Stores w C v) (hnames : DistinctNames C v) {left : ℕ}
    (hleft : j.nesting ≤ left) (hwide : j.widest ≤ maxEntries) (hroom : n + j.containers ≤ maxTables) :
    convert left path v n w = ((j, n + j.containers), w) :=
  h.convert_offers (fun r hr => ⟨_, offers_plain (hw r hr)⟩) hnames hleft hwide hroom

theorem toJson_of_convert {w' : World} (h : convert maxNesting [] v 0 w = ((j, n), w')) : toJson v w = (j, w') := by
  show ((convert maxNesting [] v 0 w).1.1, (convert maxNesting [] v 0 w).2) = (j, w')
  rw [h]

/-- A whole conversion within the limits. -/
theorem Renders.toJson_eq (h : Renders C [] v j) (hw : ∀ r, Leads C v r → ∃ t, Offers w r (C r) t)
    (hnames : DistinctNames C v) (hnesting : j.nesting ≤ maxNesting) (hcontainers : j.containers ≤ maxTables)
    (hwidest : j.widest ≤ maxEntries) : toJson v w = (j, w) :=
  toJson_of_convert (h.convert_offers hw hnames hnesting hwidest (by rwa [Nat.zero_add]))

/-- Values whose tables are in a world have a JSON. -/
theorem Stores.exists_json (hw : Stores w C v) (hnames : DistinctNames C v) : ∃ j, Renders C [] v j := by
  have hempty (q : Ref) (hq : Leads C v q) (hout : q ∉ Finset.range w.guest.tables.size) (k : Key) :
      (C q k).isNil = true := by
    have hnone : w.guest.table q = {} := Heap.table_of_size_le (by simpa using hout)
    rw [← (hw q hq).get, hnone, Table.get_empty]
    rfl
  have hfinite (q : Ref) (hq : Leads C v q) : ∃ keys : List Key, ∀ k, (C q k).isNil = false → k ∈ keys :=
    ⟨_, fun k hk => ((hw q hq).mem_keys k).mpr hk⟩
  exact exists_renders _ hnames hempty hfinite []

/-! ## Orders -/

/-- The world with the entries of every table in some order. -/
def arranged (w : World) (order : Ref → List (Key × Value)) : World :=
  { w with guest :=
    { w.guest with tables := w.guest.tables.mapIdx fun r t => Table.arrange t.hint (order r) } }

/-- Of the tables that a value leads to, the entries can be stored in every order. -/
theorem Stores.exists_arranged (hw : Stores w C v) (order : Ref → List (Key × Value))
    (horder : ∀ r, Leads C v r → (order r).Perm (w.guest.table r).entries) :
    Stores (arranged w order) C v ∧ ∀ r, Leads C v r → ((arranged w order).guest.table r).entries = order r := by
  have htable (r) (hr : Leads C v r) : ((arranged w order).guest.table r).Stores (C r) ∧
      ((arranged w order).guest.table r).entries = order r := by
    have harranged := (hw r hr).arrange (horder r hr)
    cases hget : w.guest.tables[r]? with
    | none =>
      -- a table that is not there has no entries, and stays away
      have hold : w.guest.table r = {} := by rw [Heap.table, hget]; rfl
      have hnew : (arranged w order).guest.table r = {} := by
        rw [Heap.table, arranged, Array.getElem?_mapIdx, hget]
        rfl
      have hnone := horder r hr
      rw [hold] at hnone
      exact ⟨hnew ▸ hold ▸ hw r hr, by rw [hnew, hnone.eq_nil]; rfl⟩
    | some t =>
      have hold : w.guest.table r = t := by rw [Heap.table, hget]; rfl
      have hnew : (arranged w order).guest.table r = Table.arrange t.hint (order r) := by
        rw [Heap.table, arranged, Array.getElem?_mapIdx, hget]
        rfl
      rw [hnew, ← hold]
      exact harranged
  exact ⟨fun r hr => (htable r hr).1, fun r hr => (htable r hr).2⟩

/-! ## The JSON of a value -/

/-- **Conversion gives the JSON of what the tables hold.** A value whose tables have no metatables, and none of which
has two entries of one name, has one JSON. If that is within the limits, it is what the conversion gives in every
world in which the tables hold the same; and there is one with the entries in any given order. -/
theorem conversion_renders (hw : Stores w C v) (hnames : DistinctNames C v) :
    ∃ j, (∀ j', Renders C [] v j' ↔ j' = j) ∧
      (j.nesting ≤ 16 → j.containers ≤ 4096 → j.widest ≤ 10000 →
        (∀ w', Stores w' C v → toJson v w' = (j, w')) ∧
        ∀ order : Ref → List (Key × Value), (∀ r, Leads C v r → (order r).Perm (w.guest.table r).entries) →
          ∃ w', (∀ r, Leads C v r → (w'.guest.table r).entries = order r) ∧ toJson v w' = (j, w')) := by
  have hempty : ∀ r, Leads C v r → r ∉ Finset.range w.guest.tables.size → ∀ k, (C r k).isNil = true := by
    intro r hr hout k
    have hnone : w.guest.table r = {} := by
      rw [Heap.table, Array.getElem?_eq_none (by simpa using hout)]
      rfl
    rw [← (hw r hr).get, hnone, Table.get_empty]
    rfl
  -- tables are finite and there are finitely many, so the value has a JSON
  have hfinite : ∀ r, Leads C v r → ∃ keys : List Key, ∀ k, (C r k).isNil = false → k ∈ keys :=
    fun r hr => ⟨_, fun k hk => ((hw r hr).mem_keys k).mpr hk⟩
  obtain ⟨j, hj⟩ := exists_renders _ hnames hempty hfinite []
  refine ⟨j, fun j' => ⟨fun hj' => hj'.unique hj, fun heq => heq ▸ hj⟩, fun hnesting hcontainers hwidest => ?_⟩
  have hjson (w' : World) (hw' : Stores w' C v) : toJson v w' = (j, w') := by
    have hconvert := hj.convert_eq (n := 0) hw' hnames hnesting hwidest (by rw [Nat.zero_add]; exact hcontainers)
    show (((convert maxNesting [] v 0) w').1.1, ((convert maxNesting [] v 0) w').2) = (j, w')
    rw [show convert maxNesting [] v 0 w' = _ from hconvert]
  refine ⟨hjson, fun order horder => ?_⟩
  obtain ⟨hstores, hentries⟩ := hw.exists_arranged order horder
  exact ⟨arranged w order, hentries, hjson _ hstores⟩

/-- What the tables of a world hold. -/
def contents (w : World) (r : Ref) : Key → Value := (w.guest.table r).get

/-- The entries of a table that holds another one twice and itself, from the last on, and those of the other one. -/
def ringEntries : Ref → List (Key × Value)
  | 0 => [(.int 3, .table 0), (.int 2, .table 1), (.int 1, .table 1)]
  | 1 => [(.bool true, .int 7)]
  | _ => []

/-- A world with such tables. -/
def ringWorld : World :=
  { guest := { tables := #[Table.arrange 0 (ringEntries 0), Table.arrange 0 (ringEntries 1)] } }

theorem table_ringWorld : ∀ r, ringWorld.guest.table r = Table.arrange 0 (ringEntries r)
  | 0 => rfl
  | 1 => rfl
  | _ + 2 => rfl

theorem keyed_ringEntries (r : Ref) : ∀ e ∈ ringEntries r, ∃ u : Value, u.toKey? = some e.1 := by
  have hkey : ∀ e ∈ ringEntries r, e.1.toValue.toKey? = some e.1 := by
    match r with
    | 0 => decide
    | 1 => decide
    | _ + 2 => exact fun _ he => nomatch he
  exact fun e he => ⟨_, hkey e he⟩

theorem stores_ringWorld (r : Ref) : (ringWorld.guest.table r).Stores (contents ringWorld r) := by
  rw [contents, table_ringWorld]
  exact Table.stores_arrange (by decide) (keyed_ringEntries r)

theorem entries_ringWorld (r : Ref) : (ringWorld.guest.table r).entries = ringEntries r := by
  have hspec : ((ringEntries r).map Prod.fst).Nodup ∧ ∀ e ∈ ringEntries r, e.2.isNil = false := by
    match r with
    | 0 => exact ⟨by decide, by decide⟩
    | 1 => exact ⟨by decide, by decide⟩
    | _ + 2 => exact ⟨List.nodup_nil, fun _ he => nomatch he⟩
  rw [table_ringWorld]
  exact Table.entries_arrange (by decide) (keyed_ringEntries r) hspec.1 hspec.2

theorem has_ringWorld (r : Ref) (k : Key) :
    (contents ringWorld r k).isNil = false ↔ k ∈ (ringEntries r).map Prod.fst := by
  rw [← (stores_ringWorld r).mem_keys, entries_ringWorld]

theorem get_ringWorld {r : Ref} {k : Key} {v : Value} (hentry : (k, v) ∈ ringEntries r) :
    contents ringWorld r k = v :=
  ((stores_ringWorld r).eq_of_mem (by rwa [entries_ringWorld])).symm

/-- The other table is an object, wherever it is. -/
theorem renders_other {path : List Ref} (hpath : 1 ∉ path) :
    Renders (contents ringWorld) path (.table 1) (.obj [("true", .int 7)]) := by
  have hkey {k : Key} (hk : (contents ringWorld 1 k).isNil = false) : k = .bool true :=
    List.mem_singleton.mp ((has_ringWorld 1 k).mp hk)
  have hshown (k : Key) (hk : (contents ringWorld 1 k).isNil = false) :
      Renders (contents ringWorld) (1 :: path) (contents ringWorld 1 k) ((fun _ => Json.int 7) k) := by
    obtain rfl := hkey hk
    rw [get_ringWorld (List.mem_singleton_self _)]
    exact .scalar (v := .int 7) fun _ h => nomatch h
  refine .object hpath (fun n hn => ?_) hshown (List.pairwise_singleton ..) fun name j => ?_
  · have hone : Key.int 1 ∈ places n := List.mem_map.mpr ⟨0, List.mem_range.mpr hn.pos, rfl⟩
    cases hkey ((hn.has _).mpr hone)
  · rw [List.mem_singleton, Prod.mk.injEq]
    constructor
    · rintro ⟨rfl, rfl⟩
      exact ⟨.bool true, (has_ringWorld 1 _).mpr (List.mem_singleton_self _), rfl, rfl⟩
    · rintro ⟨k, hk, rfl, rfl⟩
      obtain rfl := hkey hk
      exact ⟨rfl, rfl⟩

theorem numbered_ringWorld : Numbered (contents ringWorld 0) 3 where
  pos := by decide
  small := by decide
  has k := (has_ringWorld 0 k).trans (List.Perm.mem_iff (by decide))

theorem renders_ringWorld : Renders (contents ringWorld) [] (.table 0)
    (.arr [.obj [("true", .int 7)], .obj [("true", .int 7)], .str "<cycle>"]) := by
  let shown (k : Key) : Json := if k = .int 3 then .str "<cycle>" else .obj [("true", .int 7)]
  have hshown (k : Key) (hk : (contents ringWorld 0 k).isNil = false) :
      Renders (contents ringWorld) [0] (contents ringWorld 0 k) (shown k) := by
    have hkey : k ∈ [.int 3, .int 2, .int 1] := (has_ringWorld 0 k).mp hk
    simp only [List.mem_cons, List.not_mem_nil, or_false] at hkey
    rcases hkey with rfl | rfl | rfl
    · rw [get_ringWorld (v := .table 0) (by simp [ringEntries])]
      exact .cycle (by simp)
    · rw [get_ringWorld (v := .table 1) (by simp [ringEntries])]
      exact renders_other (by decide)
    · rw [get_ringWorld (v := .table 1) (by simp [ringEntries])]
      exact renders_other (by decide)
  exact .array (by simp) numbered_ringWorld hshown

theorem distinctNames_ringWorld : DistinctNames (contents ringWorld) (.table 0) := by
  rintro r - k k' hk hk' htext
  rw [has_ringWorld] at hk hk'
  match r with
  | 0 =>
    have hdistinct : ∀ k ∈ (ringEntries 0).map Prod.fst, ∀ k' ∈ (ringEntries 0).map Prod.fst,
        k.toValue.keyText = k'.toValue.keyText → k = k' := by decide
    exact hdistinct k hk k' hk' htext
  | 1 => exact (List.mem_singleton.mp hk).trans (List.mem_singleton.mp hk').symm
  | _ + 2 => cases hk

/-- The other table is shown twice in full, and the table itself as a cycle. -/
theorem conversion_renders_ring :
    Stores ringWorld (contents ringWorld) (.table 0) ∧ DistinctNames (contents ringWorld) (.table 0) ∧
      toJson (.table 0) ringWorld =
        (.arr [.obj [("true", .int 7)], .obj [("true", .int 7)], .str "<cycle>"], ringWorld) := by
  have hw : Stores ringWorld (contents ringWorld) (.table 0) := fun r _ => stores_ringWorld r
  obtain ⟨j, hj, hlimits⟩ := conversion_renders hw distinctNames_ringWorld
  obtain rfl := (hj _).mp renders_ringWorld
  exact ⟨hw, distinctNames_ringWorld, (hlimits (by decide) (by decide) (by decide)).1 _ hw⟩

end ScriptHost.Guest
