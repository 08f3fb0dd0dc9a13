import ScriptHost.Proofs.Guest.PathJson

/-!
# Sequences as arrays

A table whose keys are the numbers from one on becomes an array. Whether it is such a table is told from the entries that
are read of it and from its length. Only so many entries are read, and the length is that of the whole table, so that a
table with more entries becomes an object of those that are read.

* `exists_shown`: what is converted, as a function of the keys.
* `convert_stores`: what is read of a table is converted.
* `convert_short`, `convert_long`: a table whose entries are all read, and one with more entries.
* `sequence_becomes_array`: a numbered table becomes an array exactly if all its entries are read.
* `long_sequence_becomes_object`: one entry too many.
-/

namespace ScriptHost.Guest

variable {w : World} {c : Key → Value} {t : Table} {r : Ref} {n count i : ℕ} {path : List Ref}

/-! ## Numbered tables -/

/-- The number at a place, as a key. -/
abbrev numberKey (i : ℕ) : Key := .int (Int64.ofNat (i + 1))

theorem getElem?_places (hi : i < n) : (places n)[i]? = some (numberKey i) := by
  rw [places, List.getElem?_map, List.getElem?_range hi]
  rfl

/-- A numbered table has an entry for each number. -/
theorem Table.Stores.mem_entries_number (ht : t.Stores c) (hn : Numbered c n) (hi : i < n) :
    (numberKey i, c (numberKey i)) ∈ t.entries := by
  have hentry := (hn.has (numberKey i)).mpr (List.mem_of_getElem? (getElem?_places hi))
  exact (Table.mem_entries ht.indexed).mpr ⟨ht.get _, hentry⟩

/-- Different numbers have different texts. -/
theorem Table.Stores.nodup_texts (ht : t.Stores c) (hn : Numbered c n) :
    (t.entries.map fun e => e.1.toValue.keyText).Nodup := by
  have hnodup := ht.indexed.nodup_entries.map_on fun k hk k' hk' (heq : k.toValue.keyText = k'.toValue.keyText) => by
    obtain ⟨i, rfl, -⟩ := (mem_places hn.small).mp ((ht.perm hn).mem_iff.mp hk)
    obtain ⟨i', rfl, -⟩ := (mem_places hn.small).mp ((ht.perm hn).mem_iff.mp hk')
    have hread : some i = some i' := by
      rw [← readIndex?_toString i, ← readIndex?_toString i']
      exact congrArg readIndex? heq
    rw [Option.some.inj hread]
  rwa [List.map_map] at hnodup

/-! ## What is read -/

/-- What different keys are converted to is a function of the keys. -/
theorem exists_shown {keys : List Key} (hnodup : keys.Nodup) {converted : List (Value × Json)}
    (hkeys : converted.map Prod.fst = keys.map Key.toValue) :
    ∃ shown : Key → Json, converted = keys.map fun k => (k.toValue, shown k) := by
  induction keys generalizing converted with
  | nil => exact ⟨fun _ => .null, List.map_eq_nil_iff.mp hkeys⟩
  | cons k keys ih =>
    obtain ⟨hk, hnodup⟩ := List.nodup_cons.mp hnodup
    obtain ⟨⟨u, j⟩, rest, rfl, rfl, hrest⟩ := List.map_eq_cons_iff.mp hkeys
    obtain ⟨shown, rfl⟩ := ih hnodup hrest
    -- the first key is not among the others
    refine ⟨Function.update shown k j, ?_⟩
    rw [List.map_cons, Function.update_self]
    refine congrArg _ (List.map_congr_left fun a ha => ?_)
    rw [Function.update_of_ne fun heq : a = k => hk (heq ▸ ha)]

/-- What is read of a table without a metatable. -/
def firstEntries (t : Table) : List (Value × Value) := (t.entries.take maxEntries).map fun e => (e.1.toValue, e.2)

/-- A numbered table is converted as what is read of it, and its length is its last number. -/
theorem convert_stores (left : ℕ) (hr : r ∉ path) (hroom : count < 4096) (ht : (w.guest.table r).Stores c)
    (hn : Numbered c n) {converted : List (Value × Json)} {m : ℕ} {w' : World}
    (hconverted : convertEntries (convert left (r :: path)) (firstEntries (w.guest.table r)) (count + 1) w =
      ((converted, m), w')) :
    convert (left + 1) path (.table r) count w =
      ((readJson (firstEntries (w.guest.table r)) n converted, m), w') := by
  rw [convert_of_table hr (Nat.not_le.mpr hroom) left (visibleEntries_take ht), ht.border_eq hn]
  exact convertRead_eq hconverted

theorem firstEntries_short (ht : t.Stores c) (hn : Numbered c n) (hshort : n ≤ 10000) :
    firstEntries t = t.entries.map fun e => (e.1.toValue, e.2) := by
  have hall : t.entries.length ≤ maxEntries := (ht.length_entries hn).trans_le hshort
  rw [firstEntries, List.take_of_length_le hall]

/-- A numbered table of which all entries are read becomes an array of what the entries are converted to, in the order
of the numbers. -/
theorem convert_short (left : ℕ) (hr : r ∉ path) (hroom : count < 4096) (ht : (w.guest.table r).Stores c)
    (hn : Numbered c n) (hshort : n ≤ 10000) :
    ∃ shown m w',
      convertEntries (convert left (r :: path)) (firstEntries (w.guest.table r)) (count + 1) w =
        ((((w.guest.table r).entries.map Prod.fst).map fun k => (k.toValue, shown k), m), w') ∧
      convert (left + 1) path (.table r) count w = ((.arr ((places n).map shown), m), w') := by
  rcases hconverted : convertEntries (convert left (r :: path)) (firstEntries (w.guest.table r)) (count + 1) w
    with ⟨⟨converted, m⟩, w'⟩
  have hall := firstEntries_short ht hn hshort
  have hkeys : converted.map Prod.fst = ((w.guest.table r).entries.map Prod.fst).map Key.toValue := by
    have hsame := keys_convertEntries (convert left (r :: path)) (firstEntries (w.guest.table r)) (count + 1) w
    rw [hconverted, hall, List.map_map] at hsame
    rw [List.map_map]
    exact hsame
  obtain ⟨shown, rfl⟩ := exists_shown ht.indexed.nodup_entries hkeys
  refine ⟨shown, m, w', rfl, ?_⟩
  rw [convert_stores left hr hroom ht hn hconverted, hall, readJson, if_pos (ht.isSequence_of_numbered hn),
    sequenceJson_eq hn.small (ht.perm hn).symm.subset]

/-- A numbered table with more entries than are read becomes an object with a member for each entry that is read. -/
theorem convert_long (left : ℕ) (hr : r ∉ path) (hroom : count < 4096) (ht : (w.guest.table r).Stores c)
    (hn : Numbered c n) (hlong : 10000 < n) :
    ∃ members m w', convert (left + 1) path (.table r) count w = ((.obj members, m), w') ∧ members.length = 10000 := by
  rcases hconverted : convertEntries (convert left (r :: path)) (firstEntries (w.guest.table r)) (count + 1) w
    with ⟨⟨converted, m⟩, w'⟩
  have hlength : (firstEntries (w.guest.table r)).length = 10000 := by
    rw [firstEntries, List.length_map, List.length_take, ht.length_entries hn]
    exact Nat.min_eq_left hlong.le
  -- not all places are among the entries that are read
  have hsequence : isSequence (firstEntries (w.guest.table r)) n = false := by
    rw [Bool.eq_false_iff]
    intro hseq
    have hsame := (isSequence_places hseq).1
    omega
  have hnames : (named converted).map Prod.fst = (firstEntries (w.guest.table r)).map fun e => e.1.keyText := by
    have hsame := names_convertEntries (convert left (r :: path)) (firstEntries (w.guest.table r)) (count + 1) w
    rwa [hconverted] at hsame
  -- numbers have different texts, so that no member is lost
  have hnodup : ((firstEntries (w.guest.table r)).map fun e => e.1.keyText).Nodup := by
    rw [firstEntries, List.map_map]
    exact (ht.nodup_texts hn).sublist ((List.take_sublist _ _).map _)
  have hconvert := convert_stores left hr hroom ht hn hconverted
  rw [readJson, hsequence, if_neg Bool.false_ne_true, Json.ofMembers] at hconvert
  refine ⟨_, m, w', hconvert, (NameMap.length_toList_foldl_insert (named converted)).trans ?_⟩
  rw [hnames, hnodup.dedup, List.length_map, hlength]

/-! ## Sequences -/

/-- **A sequence becomes an array** exactly if it has no more entries than are read. If so, its items are what the
entries are converted to, each after the entries that are stored before it. A longer sequence becomes an object with a
member for each entry that is read. -/
theorem sequence_becomes_array (left : ℕ) (hr : r ∉ path) (hroom : count < 4096) (ht : (w.guest.table r).Stores c)
    (hn : Numbered c n) :
    ∃ j m w', convert (left + 1) path (.table r) count w = ((j, m), w') ∧
      ((∃ items, j = .arr items) ↔ n ≤ 10000) ∧
      (∀ items, j = .arr items → items.length = n ∧
        ∀ i < n, ∃ before after converted n₁ w₁ item n₂ w₂,
          (w.guest.table r).entries = before ++ (numberKey i, c (numberKey i)) :: after ∧
          convertEntries (convert left (r :: path)) (before.map fun e => (e.1.toValue, e.2)) (count + 1) w =
            ((converted, n₁), w₁) ∧
          convert left (r :: path) (c (numberKey i)) n₁ w₁ = ((item, n₂), w₂) ∧
          items[i]? = some item) ∧
      (10000 < n → ∃ members, j = .obj members ∧ members.length = 10000) := by
  rcases Nat.lt_or_ge 10000 n with hlong | hshort
  · obtain ⟨members, m, w', hconvert, hcount⟩ := convert_long left hr hroom ht hn hlong
    refine ⟨.obj members, m, w', hconvert, iff_of_false ?_ (by omega), ?_, fun _ => ⟨members, rfl, hcount⟩⟩
    · rintro ⟨items, heq⟩
      cases heq
    · intro items heq
      cases heq
  · obtain ⟨shown, m, w', hconverted, hconvert⟩ := convert_short left hr hroom ht hn hshort
    refine ⟨_, m, w', hconvert, iff_of_true ⟨_, rfl⟩ hshort, ?_, fun hlong => absurd hlong (by omega)⟩
    rintro items heq
    obtain rfl := Json.arr.inj heq
    refine ⟨by rw [List.length_map, length_places], fun i hi => ?_⟩
    obtain ⟨before, after, hsplit⟩ := List.append_of_mem (ht.mem_entries_number hn hi)
    obtain ⟨js, n₁, w₁, item, n₂, w₂, js', hfront, hitem, hall⟩ := exists_of_convertEntries
      (convert left (r :: path)) (before.map fun e => (e.1.toValue, e.2)) (after.map fun e => (e.1.toValue, e.2))
      ((numberKey i).toValue, c (numberKey i)) (count + 1) w
    refine ⟨before, after, js, n₁, w₁, item, n₂, w₂, hsplit, hfront, hitem, ?_⟩
    -- the item is among what is converted, under its number
    have hparts : (((w.guest.table r).entries.map Prod.fst).map fun k => (k.toValue, shown k)) =
        js ++ ((numberKey i).toValue, item) :: js' := by
      rw [firstEntries_short ht hn hshort, hsplit, List.map_append, List.map_cons] at hconverted
      rw [hconverted] at hall
      rw [hsplit]
      exact hall
    have hmem := hparts.symm ▸ List.mem_append_right js (List.mem_cons_self (l := js'))
    obtain ⟨k, -, heq⟩ := List.mem_map.mp hmem
    obtain ⟨hkey, rfl⟩ := Prod.mk.inj heq
    obtain rfl : k = numberKey i := by
      cases k <;> cases hkey
      rfl
    rw [List.getElem?_map, getElem?_places hi, Option.map_some]

/-- A table that is stored from its last number on becomes an array. -/
theorem sequence_becomes_array_ring :
    (ringWorld.guest.table 0).Stores (contents ringWorld 0) ∧ Numbered (contents ringWorld 0) 3 ∧
      ∃ items m w', convert 16 [] (.table 0) 0 ringWorld = ((.arr items, m), w') ∧ items.length = 3 := by
  have hstores := stores_ringWorld 0
  obtain ⟨j, m, w', hconvert, harray, hitems, -⟩ :=
    sequence_becomes_array 15 List.not_mem_nil (show 0 < 4096 by decide) hstores numbered_ringWorld
  obtain ⟨items, rfl⟩ := harray.mpr (by decide)
  exact ⟨hstores, numbered_ringWorld, items, m, w', hconvert, (hitems items rfl).1⟩

/-- Entries under the numbers from one to `n`. -/
def numberedEntries (n : ℕ) : List (Key × Value) := (places n).map fun k => (k, .bool true)

theorem keys_numberedEntries (n : ℕ) : (numberedEntries n).map Prod.fst = places n := by
  rw [numberedEntries, List.map_map]
  exact List.map_id _

/-- There is a table without a metatable for every sequence. -/
theorem stores_numberedEntries (hpos : 0 < n) (hn : n ≤ Table.maxKey) :
    ((packed [numberedEntries n]).guest.table 0).Stores (contents (packed [numberedEntries n]) 0) ∧
      Numbered (contents (packed [numberedEntries n]) 0) n := by
  have hentry : ∀ e ∈ numberedEntries n, e.1.toValue.toKey? = some e.1 ∧ e.2.isNil = false := by
    intro e he
    obtain ⟨k, hk, rfl⟩ := List.mem_map.mp he
    obtain ⟨i, rfl, -⟩ := (mem_places hn).mp hk
    exact ⟨rfl, rfl⟩
  have hnodup : ((numberedEntries n).map Prod.fst).Nodup := by
    rw [keys_numberedEntries]
    exact nodup_places hn
  have hstores := stores_packed [numberedEntries n] 0 fun e he => (hentry e he).1
  have hentries : ((packed [numberedEntries n]).guest.table 0).entries = numberedEntries n :=
    entries_packed [numberedEntries n] 0 (fun e he => (hentry e he).1) hnodup fun e he => (hentry e he).2
  refine ⟨hstores, hpos, hn, fun k => ?_⟩
  rw [← hstores.mem_keys, hentries, keys_numberedEntries]

/-- A sequence with one entry more than are read becomes no array. -/
theorem long_sequence_becomes_object :
    ((packed [numberedEntries 10001]).guest.table 0).Stores (contents (packed [numberedEntries 10001]) 0) ∧
      Numbered (contents (packed [numberedEntries 10001]) 0) 10001 ∧
      ∀ items, (toJson (.table 0) (packed [numberedEntries 10001])).1 ≠ .arr items := by
  obtain ⟨hstores, hnumbered⟩ := stores_numberedEntries (n := 10001) (by decide) (by decide)
  obtain ⟨members, m, w', hconvert, -⟩ :=
    convert_long 15 List.not_mem_nil (show 0 < 4096 by decide) hstores hnumbered (by decide)
  refine ⟨hstores, hnumbered, fun items heq => ?_⟩
  rw [toJson_of_convert hconvert] at heq
  cases heq

end ScriptHost.Guest
