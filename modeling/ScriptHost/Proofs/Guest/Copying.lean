import Mathlib.Data.List.Perm.Subperm
import ScriptHost.Guest.Freeze
import ScriptHost.Proofs.Guest.Heap

/-!
# Deep copies

A deep copy visits every table that it can reach once, and gives it one new table with the same keys. What a
key has in the copy is what it has in the original, with the copy of a table for the table.

* `Value.image`: the value that stands for a value.
* `Visit.Extends`: a later state of a visit.
* `Filled`, `Replica`: a table some of whose keys are set, and a whole copy.
* `Copies`: the state between two visits of a deep copy.
* `copyDeep_spec`, `Heap.copyTable_spec`: a copy of a table, and of a whole graph.
-/

namespace ScriptHost.Guest

/-! ## Values and what stands for them -/

/-- What the tables met so far have become. -/
abbrev Known := Std.HashMap Ref Ref

/-- The value that stands for a value: for a table, what it has become. -/
def Value.image (known : Known) : Value → Value
  | .table r => .table ((known[r]?).getD r)
  | v => v

/-- Whether the tables that a value is are known. -/
def Value.Met (known : Known) (v : Value) : Prop :=
  ∀ r, v = .table r → ∃ c, known[r]? = some c

/-- What is known stays known. -/
def Grows (known known' : Known) : Prop := ∀ r c : Ref, known[r]? = some c → known'[r]? = some c

section

variable {known known' : Known} {v : Value} {r c : Ref}

theorem Value.image_table (h : known[r]? = some c) : (Value.table r).image known = .table c := by
  simp only [image, h, Option.getD_some]

/-- What is no table stands for itself. -/
theorem Value.image_of_not_table (h : ∀ r, v ≠ .table r) : v.image known = v := by
  cases v with
  | table r => exact absurd rfl (h r)
  | _ => rfl

@[simp] theorem Value.isNil_image : (v.image known).isNil = v.isNil := by
  cases v <;> rfl

theorem Value.Met.mono (h : v.Met known) (hgrows : Grows known known') : v.Met known' := by
  intro r hr
  obtain ⟨c, hc⟩ := h r hr
  exact ⟨c, hgrows r c hc⟩

theorem Value.Met.image_eq (h : v.Met known) (hgrows : Grows known known') :
    v.image known' = v.image known := by
  cases v with
  | table r =>
    obtain ⟨c, hc⟩ := h r rfl
    rw [image_table hc, image_table (hgrows r c hc)]
  | _ => rfl

theorem Value.met_of_not_table (h : ∀ r, v ≠ .table r) : v.Met known :=
  fun r hr => absurd hr (h r)

/-- As many tables are known as there are at most. -/
theorem known_size_le {n : ℕ} (h : ∀ r c : ℕ, known[r]? = some c → r < n) : known.size ≤ n := by
  rw [← Std.HashMap.length_keys, ← List.length_range (n := n)]
  refine (Std.HashMap.nodup_keys.subperm fun r hr => ?_).length_le
  obtain ⟨c, hc⟩ := Option.isSome_iff_exists.mp
    (Std.HashMap.mem_iff_isSome_getElem?.mp (Std.HashMap.mem_keys.mp hr))
  exact List.mem_range.mpr (h r c hc)

theorem grows_insert (h : known[r]? = none) : Grows known (known.insert r c) := by
  intro q d hq
  rw [Std.HashMap.getElem?_insert]
  split
  · next heq =>
    rw [beq_iff_eq] at heq
    rw [← heq, h] at hq
    cases hq
  · exact hq

theorem known_size_insert (h : known[r]? = none) :
    (known.insert r c).size = known.size + 1 := by
  rw [Std.HashMap.size_insert, if_neg]
  rw [Std.HashMap.mem_iff_isSome_getElem?, h]
  simp

end

/-! ## States of a visit -/

/-- A later state of a visit, in which only tables of `changed` and new ones differ. -/
structure Visit.Extends (changed : Ref → Prop) (s s' : Visit) : Prop where
  frame : s.heap.Frame s'.heap
  size : s.heap.tables.size ≤ s'.heap.tables.size
  known : Grows s.known s'.known
  count : s.known.size ≤ s'.known.size
  tables : ∀ r, r < s.heap.tables.size → ¬changed r → s'.heap.table r = s.heap.table r

section

variable {changed : Ref → Prop} {s s' s'' : Visit}

theorem Visit.Extends.refl : s.Extends changed s :=
  ⟨Heap.Frame.refl, Nat.le_refl _, fun _ _ h => h, Nat.le_refl _, fun _ _ _ => rfl⟩

theorem Visit.Extends.trans {first second : Ref → Prop} (h : s.Extends first s')
    (h' : s'.Extends second s'') (hfirst : ∀ r, r < s.heap.tables.size → first r → changed r)
    (hsecond : ∀ r, r < s.heap.tables.size → second r → changed r) : s.Extends changed s'' where
  frame := h.frame.trans h'.frame
  size := Nat.le_trans h.size h'.size
  known r c hr := h'.known r c (h.known r c hr)
  count := Nat.le_trans h.count h'.count
  tables r hr hc := (h'.tables r (Nat.lt_of_lt_of_le hr h.size) fun hs => hc (hsecond r hr hs)).trans
    (h.tables r hr fun hs => hc (hfirst r hr hs))

theorem Visit.extends_setEntry {r : Ref} (k : Key) (v : Value) :
    s.Extends (· = r) (setEntry r k v s).2 where
  frame := Heap.frame_modifyTable _
  size := Nat.le_of_eq (Heap.size_modifyTable _).symm
  known _ _ h := h
  count := Nat.le_refl _
  tables _ _ hne := Heap.table_modifyTable_of_ne _ hne

theorem Visit.extends_standFor {r : Ref} (h : s.known[r]? = none) :
    s.Extends (fun _ => False) (standFor r s).2 where
  frame := Heap.frame_allocTable
  size := Nat.le_of_lt (Nat.lt_of_lt_of_eq (Nat.lt_succ_self _) Heap.size_allocTable.symm)
  known := grows_insert h
  count := Nat.le_of_lt (Nat.lt_of_lt_of_eq (Nat.lt_succ_self _) (known_size_insert h).symm)
  tables _ hq _ := Heap.table_allocTable.trans (if_neg (Nat.ne_of_lt hq))

end

/-! ## Tables in the making -/

/-- A table that was `base`, and in which the keys of `done` now have what stands for their values in
`source`. -/
structure Filled (known : Known) (source base : Table) (done : List Key) (t : Table) : Prop where
  keys : t.keys = base.keys ++ done.filter (· ∉ base.keys)
  get : ∀ k, t.get k = if k ∈ done then (source.get k).image known else base.get k
  indexed : t.Indexed
  metatable : t.metatable = base.metatable
  hint : t.hint = base.hint
  met : ∀ k ∈ done, (source.get k).Met known

/-- The keys that have a value. -/
def Table.entryKeys (t : Table) : List Key := t.entries.map Prod.fst

/-- A whole copy of a table. -/
abbrev Replica (known : Known) (source copy : Table) : Prop :=
  Filled known source {} source.entryKeys copy

theorem Table.mem_entryKeys {t : Table} (h : t.Indexed) {k : Key} :
    k ∈ t.entryKeys ↔ (t.get k).isNil = false := by
  rw [entryKeys, List.mem_map]
  constructor
  · rintro ⟨⟨k, v⟩, hmem, rfl⟩
    obtain ⟨hget, hnil⟩ := (mem_entries h).mp hmem
    exact hget ▸ hnil
  · intro hnil
    exact ⟨(k, t.get k), (mem_entries h).mpr ⟨rfl, hnil⟩, rfl⟩

section

variable {known known' : Known} {source base t : Table} {done : List Key} {k : Key}

theorem filled_nil (h : base.Indexed) : Filled known source base [] base :=
  ⟨by simp, fun k => by simp, h, rfl, rfl, fun k hk => absurd hk (by simp)⟩

theorem Filled.mono (h : Filled known source base done t) (hgrows : Grows known known') :
    Filled known' source base done t where
  keys := h.keys
  get k := by
    rw [h.get k]
    split
    · next hk => rw [(h.met k hk).image_eq hgrows]
    · rfl
  indexed := h.indexed
  metatable := h.metatable
  hint := h.hint
  met k hk := (h.met k hk).mono hgrows

theorem Filled.met_snoc (h : Filled known source base done t) (hmet : (source.get k).Met known) :
    ∀ a ∈ done ++ [k], (source.get a).Met known := by
  intro a ha
  rcases List.mem_append.mp ha with ha | ha
  · exact h.met a ha
  · exact List.mem_singleton.mp ha ▸ hmet

/-- One more key is set. -/
theorem Filled.set (h : Filled known source base done t) (hk : k ∉ done)
    (hv : (source.get k).isNil = false) (hmet : (source.get k).Met known) :
    Filled known source base (done ++ [k]) (t.set k ((source.get k).image known)) where
  keys := by
    rw [Table.keys_set h.indexed, h.keys, List.filter_append, Value.isNil_image]
    by_cases hbase : k ∈ base.keys
    · simp [hbase]
    · simp [hbase, hk, hv]
  get a := by
    rw [Table.get_set h.indexed, h.get a]
    by_cases hka : k = a
    · subst hka
      rw [if_pos rfl, if_pos (by simp)]
    · simp only [if_neg hka, List.mem_append, List.mem_singleton, Ne.symm hka, or_false]
  indexed := h.indexed.set _ _
  metatable := Table.metatable_set.trans h.metatable
  hint := Table.hint_set.trans h.hint
  met := h.met_snoc hmet

/-- When all keys that have a value are set, every key has what stands for its value. -/
theorem Filled.get_eq (h : Filled known source base source.entryKeys t) (hsource : source.Indexed)
    (hbase : ∀ k, source.get k = .nil → base.get k = .nil) (k : Key) :
    t.get k = (source.get k).image known := by
  rw [h.get k]
  split
  · rfl
  · next hk =>
    rw [Table.mem_entryKeys hsource, Bool.not_eq_false, Value.isNil_iff] at hk
    rw [hbase k hk, hk]
    rfl

/-- The tables that such a table holds are what tables have become. -/
theorem Filled.exists_of_get (h : Filled known source base source.entryKeys t)
    (hsource : source.Indexed) (hbase : ∀ k, source.get k = .nil → base.get k = .nil) {c : Ref}
    (hget : t.get k = .table c) : ∃ r, source.get k = .table r ∧ known[r]? = some c := by
  rw [h.get_eq hsource hbase] at hget
  cases hk : source.get k with
  | table r =>
    obtain ⟨d, hd⟩ := h.met k ((Table.mem_entryKeys hsource).mpr (by rw [hk]; rfl)) r hk
    rw [hk, Value.image_table hd] at hget
    exact ⟨r, rfl, hd.trans (congrArg some (Value.table.inj hget))⟩
  | _ =>
    rw [hk] at hget
    cases hget

theorem Replica.get_eq (h : Replica known source t) (hsource : source.Indexed) (k : Key) :
    t.get k = (source.get k).image known :=
  Filled.get_eq h hsource (fun _ _ => Table.get_empty) k

end

/-! ## The pass -/

/-- Each known table is one of `h` and of `S`, and has a new place of its own. -/
structure Placed (h : Heap) (S : Ref → Prop) (s : Visit) : Prop where
  among : ∀ r c : Ref, s.known[r]? = some c → S r
  size : h.tables.size ≤ s.heap.tables.size
  known : ∀ r c : ℕ, s.known[r]? = some c →
    r < h.tables.size ∧ h.tables.size ≤ c ∧ c < s.heap.tables.size
  inj : ∀ r r' c : ℕ, s.known[r]? = some c → s.known[r']? = some c → r = r'

/-- Between two visits of a deep copy of tables of `h`, these tables are as they were, and every new table is
a copy. -/
structure Copies (h : Heap) (S : Ref → Prop) (s : Visit) : Prop extends Placed h S s where
  tables : ∀ r : ℕ, r < h.tables.size → s.heap.table r = h.table r
  onto : ∀ c : ℕ, h.tables.size ≤ c → c < s.heap.tables.size → ∃ r : Ref, s.known[r]? = some c

/-- The copies of all tables that became known are whole. -/
def Whole (h : Heap) (s s' : Visit) : Prop :=
  ∀ q d : Ref, s.known[q]? = none → s'.known[q]? = some d →
    Replica s'.known (h.table q) (s'.heap.table d)

/-- What the copying of a table leads to. -/
structure CopyResult (h : Heap) (S : Ref → Prop) (r : Ref) (s : Visit) (result : Ref × Visit) : Prop where
  known : result.2.known[r]? = some result.1
  copies : Copies h S result.2
  later : s.Extends (fun _ => False) result.2
  whole : Whole h s result.2

section

variable {h : Heap} {S : Ref → Prop} {s : Visit} {r target : ℕ}

theorem Placed.standFor (hs : Placed h S s) (hS : S r) (hr : r < h.tables.size)
    (hnew : s.known[r]? = none) : Placed h S (standFor r s).2 where
  among q c hq := by
    have hknown : (s.known.insert r s.heap.tables.size)[q]? = some c := hq
    rw [Std.HashMap.getElem?_insert] at hknown
    split at hknown
    · next heq => exact beq_iff_eq.mp heq ▸ hS
    · exact hs.among q c hknown
  size := Nat.le_trans hs.size (Visit.extends_standFor hnew).size
  known q c hq := by
    show _ ∧ _ ∧ c < (s.heap.allocTable {}).2.tables.size
    rw [Heap.size_allocTable]
    have hknown : (s.known.insert r s.heap.tables.size)[q]? = some c := hq
    rw [Std.HashMap.getElem?_insert] at hknown
    split at hknown
    · next heq =>
      cases hknown
      exact ⟨(beq_iff_eq.mp heq) ▸ hr, hs.size, Nat.lt_succ_self _⟩
    · have hold := hs.known q c hknown
      exact ⟨hold.1, hold.2.1, Nat.lt_succ_of_lt hold.2.2⟩
  inj q q' c hq hq' := by
    have hknown : (s.known.insert r s.heap.tables.size)[q]? = some c := hq
    have hknown' : (s.known.insert r s.heap.tables.size)[q']? = some c := hq'
    rw [Std.HashMap.getElem?_insert] at hknown hknown'
    -- the newest copy has a place that no other has
    split at hknown <;> split at hknown'
    · next heq heq' => exact (beq_iff_eq.mp heq).symm.trans (beq_iff_eq.mp heq')
    · cases hknown
      exact absurd (hs.known q' _ hknown').2.2 (Nat.lt_irrefl _)
    · cases hknown'
      exact absurd (hs.known q _ hknown).2.2 (Nat.lt_irrefl _)
    · exact hs.inj q q' c hknown hknown'

theorem Placed.later {changed : Ref → Prop} {s' : Visit} (hs : Placed h S s)
    (hlater : s.Extends changed s') (heq : s'.known = s.known) : Placed h S s' where
  among := heq ▸ hs.among
  size := Nat.le_trans hs.size hlater.size
  known q c hq := by
    have hold := hs.known q c (heq ▸ hq)
    exact ⟨hold.1, hold.2.1, Nat.lt_of_lt_of_le hold.2.2 hlater.size⟩
  inj := heq ▸ hs.inj

theorem Placed.known_size_le (hs : Placed h S s) : s.known.size ≤ h.tables.size :=
  Guest.known_size_le fun r c hc => (hs.known r c hc).1

theorem Copies.standFor (hs : Copies h S s) (hS : S r) (hr : r < h.tables.size)
    (hnew : s.known[r]? = none) : Copies h S (standFor r s).2 where
  toPlaced := hs.toPlaced.standFor hS hr hnew
  onto c hc hlt := by
    by_cases hnewest : c = s.heap.tables.size
    · exact ⟨r, hnewest ▸ Std.HashMap.getElem?_insert_self⟩
    · have hold : c < s.heap.tables.size :=
        Nat.lt_of_le_of_ne (Nat.le_of_lt_succ (Nat.lt_of_lt_of_eq hlt Heap.size_allocTable)) hnewest
      obtain ⟨q, hq⟩ := hs.onto c hc hold
      exact ⟨q, grows_insert hnew q c hq⟩
  tables q hq := by
    rw [(Visit.extends_standFor hnew).tables q (Nat.lt_of_lt_of_le hq hs.size) fun hf => hf]
    exact hs.tables q hq

theorem Copies.setEntry (hs : Copies h S s) (htarget : h.tables.size ≤ target) (k : Key) (v : Value) :
    Copies h S (setEntry target k v s).2 where
  toPlaced := hs.toPlaced.later (Visit.extends_setEntry k v) rfl
  onto c hc hlt := hs.onto c hc (Nat.lt_of_lt_of_eq hlt (Heap.size_modifyTable _))
  tables q hq := by
    rw [(Visit.extends_setEntry k v).tables q (Nat.lt_of_lt_of_le hq hs.size)
      (Nat.ne_of_lt (Nat.lt_of_lt_of_le hq htarget))]
    exact hs.tables q hq

theorem table_setEntry (htarget : target < s.heap.tables.size) (k : Key) (v : Value) :
    (setEntry target k v s).2.heap.table target = (s.heap.table target).set k v :=
  (Heap.table_modifyTable _ htarget).trans (if_pos rfl)

/-- Copies that are whole stay so, unless they change. -/
theorem Whole.trans {changed : Ref → Prop} {s₁ s₂ : Visit} (h₁ : Whole h s s₁) (hs₁ : Copies h S s₁)
    (h₂ : Whole h s₁ s₂) (hlater : s₁.Extends changed s₂)
    (hnew : ∀ q d : Ref, s.known[q]? = none → s₁.known[q]? = some d → ¬changed d) :
    Whole h s s₂ := by
  intro q d hq hd
  cases hq₁ : s₁.known[q]? with
  | none => exact h₂ q d hq₁ hd
  | some c =>
    have hcd : c = d := Option.some.inj ((hlater.known q c hq₁).symm.trans hd)
    subst hcd
    rw [hlater.tables c (hs₁.known q c hq₁).2.2 (hnew q c hq hq₁)]
    exact (h₁ q c hq hq₁).mono hlater.known

theorem whole_of_known {s' : Visit} (heq : s'.known = s.known) : Whole h s s' := by
  intro q d hnone hsome
  rw [heq, hnone] at hsome
  cases hsome

/-! ## Copying the entries of a table -/

theorem copyEntries_table (copy : Ref → VisitM Ref) (k : Key) (q : Ref)
    (es : List (Key × Value)) :
    (copyEntries copy target ((k, .table q) :: es) s).2 =
      (copyEntries copy target es
        (Guest.setEntry target k (.table (copy q s).1) (copy q s).2).2).2 := rfl

theorem copyEntries_other (copy : Ref → VisitM Ref) (k : Key) {v : Value}
    (hv : ∀ q, v ≠ .table q) (es : List (Key × Value)) :
    (copyEntries copy target ((k, v) :: es) s).2 =
      (copyEntries copy target es (Guest.setEntry target k v s).2).2 := by
  cases v with
  | table q => exact absurd rfl (hv q)
  | _ => rfl

/-- What copying entries into the copy of a table leads to. -/
structure EntriesResult (h : Heap) (S : Ref → Prop) (target : Ref) (source : Table) (done : List Key)
    (s s' : Visit) : Prop where
  copies : Copies h S s'
  later : s.Extends (· = target) s'
  filled : Filled s'.known source {} done (s'.heap.table target)
  whole : Whole h s s'

variable {source : Table} {done : List Key}

/-- One entry that is no table. -/
theorem EntriesResult.plain (hs : Copies h S s) (hr : s.known[r]? = some target)
    (hfilled : Filled s.known source {} done (s.heap.table target)) {k : Key} (hk : k ∉ done)
    (hnil : (source.get k).isNil = false) (hplain : ∀ q, source.get k ≠ .table q) :
    EntriesResult h S target source (done ++ [k]) s
      (Guest.setEntry target k (source.get k) s).2 where
  copies := hs.setEntry (hs.known r target hr).2.1 k _
  later := Visit.extends_setEntry k _
  filled := by
    rw [table_setEntry (hs.known r target hr).2.2]
    have hset := hfilled.set hk hnil (Value.met_of_not_table hplain)
    rw [Value.image_of_not_table hplain] at hset
    exact hset
  whole := whole_of_known rfl

/-- One entry that is a table, which is copied first. -/
theorem EntriesResult.nested (hs : Copies h S s) (hr : s.known[r]? = some target)
    (hfilled : Filled s.known source {} done (s.heap.table target)) {k : Key} (hk : k ∉ done)
    {q : Ref} (hget : source.get k = .table q) {result : Ref × Visit}
    (hresult : CopyResult h S q s result) :
    EntriesResult h S target source (done ++ [k]) s
      (Guest.setEntry target k (.table result.1) result.2).2 where
  copies := hresult.copies.setEntry (hs.known r target hr).2.1 k _
  later := hresult.later.trans (Visit.extends_setEntry k _) (fun _ _ hf => hf.elim)
    fun _ _ heq => heq
  filled := by
    rw [table_setEntry (Nat.lt_of_lt_of_le (hs.known r target hr).2.2 hresult.later.size),
      hresult.later.tables target (hs.known r target hr).2.2 fun hf => hf]
    have hmet : (source.get k).Met result.2.known := by
      intro q' hq'
      rw [hget] at hq'
      cases hq'
      exact ⟨result.1, hresult.known⟩
    have hset := (hfilled.mono hresult.later.known).set hk (by rw [hget]; rfl) hmet
    rw [hget, Value.image_table hresult.known] at hset
    exact hset
  whole := by
    refine Whole.trans hresult.whole hresult.copies (whole_of_known rfl)
      (Visit.extends_setEntry k _) ?_
    -- a table that became known has another copy than the one that is being filled
    rintro p d hp hd rfl
    have hr' := hresult.later.known r d hr
    rw [hresult.copies.inj p r d hd hr', hr] at hp
    cases hp

theorem copyEntries_spec {copy : Ref → VisitM Ref} {fuel : ℕ}
    (hcopy : ∀ (q : ℕ) s, Copies h S s → S q → q < h.tables.size →
      h.tables.size < s.known.size + fuel → CopyResult h S q s (copy q s))
    (hsource : source.Within (· < h.tables.size)) (hS : ∀ k q, source.get k = .table q → S q)
    (es : List (Key × Value)) (hs : Copies h S s)
    (hroom : h.tables.size < s.known.size + fuel) (hr : s.known[r]? = some target)
    (hes : ∀ e ∈ es, source.get e.1 = e.2 ∧ e.2.isNil = false)
    (hnodup : (done ++ es.map Prod.fst).Nodup)
    (hfilled : Filled s.known source {} done (s.heap.table target)) :
    EntriesResult h S target source (done ++ es.map Prod.fst) s (copyEntries copy target es s).2 := by
  induction es generalizing s done with
  | nil =>
    rw [List.map_nil, List.append_nil]
    exact ⟨hs, Visit.Extends.refl, hfilled, whole_of_known rfl⟩
  | cons e es ih =>
    obtain ⟨k, v⟩ := e
    obtain ⟨hget, hnil⟩ : source.get k = v ∧ v.isNil = false := hes (k, v) (by simp)
    have hk : k ∉ done := fun hmem =>
      (List.nodup_append.mp hnodup).2.2 k hmem k (by simp) rfl
    -- the first entry, which is copied first if it is a table
    obtain ⟨s₁, hone, heq⟩ : ∃ s₁, EntriesResult h S target source (done ++ [k]) s s₁ ∧
        (copyEntries copy target ((k, v) :: es) s).2 = (copyEntries copy target es s₁).2 := by
      by_cases htable : ∃ q, v = .table q
      · obtain ⟨q, rfl⟩ := htable
        have hq : q < h.tables.size := hsource.get k q (by rw [hget]; rfl)
        exact ⟨_, .nested hs hr hfilled hk hget (hcopy q s hs (hS k q hget) hq hroom),
          copyEntries_table copy k q es⟩
      · have hplain : ∀ q, v ≠ .table q := fun q hq => htable ⟨q, hq⟩
        subst hget
        exact ⟨_, .plain hs hr hfilled hk hnil hplain, copyEntries_other copy k hplain es⟩
    -- the rest, with what the first entry has made known
    have hrest := ih hone.copies (Nat.lt_of_lt_of_le hroom (Nat.add_le_add_right hone.later.count _))
      (hone.later.known r target hr) (fun e he => hes e (by simp [he]))
      (by simpa using hnodup) hone.filled
    rw [heq, List.map_cons, List.append_cons]
    refine ⟨hrest.copies, hone.later.trans hrest.later (fun _ _ h => h) fun _ _ h => h,
      hrest.filled, Whole.trans hone.whole hone.copies hrest.whole hrest.later ?_⟩
    rintro p d hp hd rfl
    rw [hone.copies.inj p r d hd (hone.later.known r d hr), hr] at hp
    cases hp

/-! ## The whole pass -/

theorem get_bind {α : Type} (f : Visit → VisitM α) (s : Visit) : (get >>= f) s = f s s := rfl

theorem copyVisit_known {copy : Ref → VisitM Ref} {c : Ref} (hr : s.known[r]? = some c) :
    copyVisit copy r s = (c, s) := by
  rw [copyVisit, get_bind, hr]
  rfl

theorem copyVisit_new {copy : Ref → VisitM Ref} (hr : s.known[r]? = none) :
    copyVisit copy r s = ((Guest.standFor r s).1,
      (copyEntries copy (Guest.standFor r s).1
        ((Guest.standFor r s).2.heap.table r).entries (Guest.standFor r s).2).2) := by
  rw [copyVisit, get_bind, hr]
  rfl

theorem copyDeep_succ (fuel : ℕ) : copyDeep (fuel + 1) = copyVisit (copyDeep fuel) := rfl

/-- Every table that can be reached is copied once; there is fuel enough, since every visit makes one more table
known. -/
theorem copyDeep_spec (hclosed : h.Closed)
    (hS : ∀ r k q, S r → (h.table r).get k = .table q → S q) (fuel : ℕ) (hs : Copies h S s)
    (hSr : S r) (hr : r < h.tables.size)
    (hroom : h.tables.size < s.known.size + fuel) : CopyResult h S r s (copyDeep fuel r s) := by
  induction fuel generalizing s r with
  | zero =>
    -- no fuel is left, so all tables are known; but then there would be more of them than there are
    have hsize := hs.known_size_le
    omega
  | succ fuel ih =>
    cases hknown : s.known[r]? with
    | some c =>
      rw [copyDeep_succ, copyVisit_known hknown]
      exact ⟨hknown, hs, Visit.Extends.refl, whole_of_known rfl⟩
    | none =>
      -- the copy is known before its entries are copied, which may lead back to it
      have hstand := hs.standFor hSr hr hknown
      have hlater := Visit.extends_standFor hknown
      have hself : (Guest.standFor r s).2.known[r]? = some (Guest.standFor r s).1 :=
        Std.HashMap.getElem?_insert_self
      have hcount : (Guest.standFor r s).2.known.size = s.known.size + 1 := known_size_insert hknown
      have hsource : (Guest.standFor r s).2.heap.table r = h.table r := hstand.tables r hr
      have hfresh : (Guest.standFor r s).2.heap.table (Guest.standFor r s).1 = {} :=
        Heap.table_allocTable.trans (if_pos rfl)
      have hindexed := hclosed.indexed r
      have hentries := copyEntries_spec (fun q s hs hSq hq hroom => ih hs hSq hq hroom)
        (hclosed.within r) (hS r · · hSr) (h.table r).entries hstand (by omega) hself
        (fun e he => (Table.mem_entries hindexed).mp he)
        (hindexed.nodup_entries) (by rw [hfresh]; exact filled_nil Table.indexed_empty)
      rw [copyDeep_succ, copyVisit_new hknown, hsource]
      refine ⟨hentries.later.known r _ hself, hentries.copies,
        hlater.trans hentries.later (fun _ _ hf => hf) fun q hq heq => ?_, fun q d hq hd => ?_⟩
      · rw [heq] at hq
        exact Nat.lt_irrefl _ hq
      · by_cases hqr : r = q
        · subst hqr
          rw [hentries.later.known r _ hself] at hd
          cases hd
          exact hentries.filled
        · refine hentries.whole q d ?_ hd
          show (s.known.insert r _)[q]? = none
          rw [Std.HashMap.getElem?_insert, if_neg (by simpa using hqr)]
          exact hq

end

/-- What a deep copy of a closed heap's table comes to: a heap with new tables, of which every one is the
replica of an old one in `S`. -/
structure CopiedFrom (h : Heap) (S : Ref → Prop) (r c : Ref) (known : Known) (h' : Heap) :
    Prop where
  root : known[r]? = some c
  copies : Copies h S ⟨h', known⟩
  frame : h.Frame h'
  replica : ∀ q d : Ref, known[q]? = some d → Replica known (h.table q) (h'.table d)

/-- Nothing is copied yet. -/
theorem copies_start (h : Heap) {S : Ref → Prop} : Copies h S { heap := h } where
  among q c hq := absurd hq (by simp)
  size := Nat.le_refl _
  known q c hq := absurd hq (by simp)
  inj q q' c hq := absurd hq (by simp)
  tables _ _ := rfl
  onto c hc hlt := absurd hc (Nat.not_le_of_lt hlt)

/-- **A deep copy.** Only tables of a set `S` are copied that contains all that can be reached. -/
theorem Heap.copyTable_spec {h : Heap} {S : Ref → Prop} {r : ℕ} (hclosed : h.Closed)
    (hS : ∀ r k q, S r → (h.table r).get k = .table q → S q) (hSr : S r) (hr : r < h.tables.size) :
    ∃ known, CopiedFrom h S r (h.copyTable r).1 known (h.copyTable r).2 := by
  have hresult := copyDeep_spec hclosed hS (h.tables.size + 1) (copies_start h) hSr hr (by simp)
  exact ⟨_, hresult.known, hresult.copies, hresult.later.frame,
    fun q d hq => hresult.whole q d (by simp) hq⟩

end ScriptHost.Guest
