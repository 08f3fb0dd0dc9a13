import ScriptHost.Proofs.Guest.Contents
import ScriptHost.Proofs.Guest.SharedEnvironment

/-!
# What a proxy shows

Guest code that reads a proxy, iterates over it or takes its length is given what the table behind it holds. If that
table has the entries of another one, the proxy is a mirror of the other one.

* `Value.rename`: a value with other tables in place of those that it is.
* `Access.Gives`, `Lists`: what an access gives, and what a whole iteration gives.
* `Reproduced`: a table with the entries of another one, its tables renamed.
* `Mirrors`: a proxy that shows a table.
* `Reproduced.mirrors`: a proxy of a table with the entries of another one shows that one.
-/

namespace ScriptHost.Guest

/-- A value with another table in place of each table. -/
def Value.rename (stand : Ref → Ref) : Value → Value
  | .table r => .table (stand r)
  | v => v

/-- What an access gives, whatever functions of the guest answer on its way. It changes nothing. -/
def Access.Gives (a : Access) (w : World) (vs : List Value) : Prop :=
  ∀ answer, a.run (along answer) w = (.ok vs, w)

/-- From a key on `next` gives some keys with their values, one after the other, and then nil. -/
def Lists (w : World) (v : Value) : Value → List (Value × Value) → Prop
  | k, [] => (Access.call .next [v, k]).Gives w [.nil]
  | k, (key, x) :: es =>
    (Access.call .next [v, k]).Gives w [key, x] ∧ key.isNil = false ∧ Lists w v key es

/-- A table that has the entries of a table `source`, with `stand r` in place of every table `r` that is a value. -/
structure Reproduced (stand : Ref → Ref) (source t : Table) : Prop where
  get : ∀ k, t.get k = (source.get k).rename stand
  indexed : t.Indexed
  keyed : t.Keyed
  metatable : t.metatable = none
  hint : t.hint = 0

/-- A proxy `stand s` shows guest code in a world the table `s` of the heap `h`, with `stand r` in place of every table
`r` that is a value. -/
structure Mirrors (h : Heap) (stand : Ref → Ref) (w : World) (s : Ref) : Prop where
  index : ∀ k, ∃ v, h.index (.table s) k = .value v ∧
    (Access.index (.table (stand s)) k).Gives w [v.rename stand]
  /-- An iteration by `pairs` gives every entry once. -/
  pairs : ∃ b es,
    (Access.call .pairs [.table (stand s)]).Gives w [.native (.base .next), .table b, .nil] ∧
    Lists w (.table b) .nil es ∧ (es.map Prod.fst).Nodup ∧
    es.Perm ((h.table s).entries.map fun e => (e.1.toValue, e.2.rename stand))
  length : ∀ n, (h.table s).Sequence n → (Access.length (.table (stand s))).Gives w [.int n]
  refuses : ∀ k x, Refuses w (.table (stand s)) k x

section

variable {h : Heap} {w : World} {stand : Ref → Ref} {source t : Table} {p m b s : Ref} {v : Value}

@[simp] theorem Value.isNil_rename : (v.rename stand).isNil = v.isNil := by
  cases v <;> rfl

/-! ## Iteration -/

/-- What `next` gives for an entry, or at the end. -/
def entryValues : Option (Key × Value) → List Value
  | none => [.nil]
  | some e => [e.1.toValue, e.2]

theorem nextEntry_apply (k : Value) (context : CallContext) : Library.nextEntry b k context w =
    (match (match k.toKey?, k with
      | none, .nil => (w.guest.table b).entryAfter none
      | none, _ => .error ()
      | some key, _ => (w.guest.table b).entryAfter (some key)) with
    | .error () => (bareFault "invalid key to 'next'" : NativeM Outcome)
    | .ok none => result .nil
    | .ok (some (key, v)) => results [key.toValue, v]) context w := rfl

theorem nextEntry_first (context : CallContext) : Library.nextEntry b .nil context w =
    (.ok (.values (entryValues (w.guest.table b).entries.head?)), w) := by
  have hfirst := (w.guest.table b).entryAfter_none
  rw [nextEntry_apply]
  simp only [show Value.nil.toKey? = none from rfl, hfirst]
  cases (w.guest.table b).entries.head? <;> rfl

theorem nextEntry_after {key : Key} (hkey : key.toValue.toKey? = some key)
    {found : Option (Key × Value)} (hafter : (w.guest.table b).entryAfter (some key) = .ok found)
    (context : CallContext) :
    Library.nextEntry b key.toValue context w = (.ok (.values (entryValues found)), w) := by
  rw [nextEntry_apply, hkey]
  simp only [hafter]
  cases found <;> rfl

theorem gives_next {k : Value} {vs : List Value}
    (hnext : ∀ context, Library.nextEntry b k context w = (.ok (.values vs), w)) :
    (Access.call .next [.table b, k]).Gives w vs := by
  intro answer
  show (Library.nextEntry b k >>= Access.results) (along answer) w = _
  rw [Looks.bind_eq, hnext]
  rfl

/-- The key of the first entry from a place on leads `next` to its place, and from there to the entry after it. -/
theorem exists_nextEntry (hi : (w.guest.table b).Indexed) (hkeyed : (w.guest.table b).Keyed)
    {e : Key × Value} {es : List (Key × Value)} {i : ℕ} (hes : (w.guest.table b).entriesFrom i = e :: es) :
    ∃ j, (w.guest.table b).entriesFrom (j + 1) = es ∧ ∀ context,
      Library.nextEntry b e.1.toValue context w = (.ok (.values (entryValues es.head?)), w) := by
  obtain ⟨j, hslot, hrest⟩ := Table.exists_slot_of_entriesFrom hes
  have hafter := hi.entryAfter_slot hslot
  rw [hrest] at hafter
  have hkey := hkeyed.toKey? (Table.mem_keys_of_slot hslot)
  exact ⟨j, hrest, nextEntry_after hkey hafter⟩

/-- When `next` gives the first entry from a place on, an iteration goes on to give all of them. -/
theorem lists_of_nextEntry (hi : (w.guest.table b).Indexed) (hkeyed : (w.guest.table b).Keyed)
    (es : List (Key × Value)) {i : ℕ} (hes : (w.guest.table b).entriesFrom i = es) {k : Value}
    (hnext : ∀ context,
      Library.nextEntry b k context w = (.ok (.values (entryValues es.head?)), w)) :
    Lists w (.table b) k (es.map fun e => (e.1.toValue, e.2)) := by
  induction es generalizing i k with
  | nil => exact gives_next hnext
  | cons e es ih =>
    obtain ⟨j, hrest, hafter⟩ := exists_nextEntry hi hkeyed hes
    exact ⟨gives_next hnext, e.1.isNil_toValue, ih hrest hafter⟩

/-- An iteration over a table gives its entries. -/
theorem lists_entries (hi : (w.guest.table b).Indexed) (hkeyed : (w.guest.table b).Keyed) :
    Lists w (.table b) .nil ((w.guest.table b).entries.map fun e => (e.1.toValue, e.2)) :=
  lists_of_nextEntry hi hkeyed _ (i := 0) rfl nextEntry_first

/-- The keys that an iteration gives are different values. -/
theorem Table.Keyed.nodup_toValue (hkeyed : t.Keyed) (hi : t.Indexed) :
    ((t.entries.map fun e => (e.1.toValue, e.2)).map Prod.fst).Nodup := by
  have heq : (t.entries.map fun e => (e.1.toValue, e.2)).map Prod.fst =
      (t.entries.map Prod.fst).map Key.toValue := by
    simp only [List.map_map]
    rfl
  rw [heq]
  have hkey : ∀ k ∈ t.entries.map Prod.fst, k.toValue.toKey? = some k := fun k hk =>
    hkeyed.toKey? ((List.filter_sublist.map Prod.fst).subset hk)
  refine hi.nodup_entries.map_on fun k hk k' hk' hvalue => ?_
  have hsame := hkey k hk
  rw [hvalue, hkey k' hk'] at hsame
  exact (Option.some.inj hsame).symm

/-! ## Accesses to a proxy -/

namespace Heap.Guards

variable (hg : w.guest.Guards p m b)
include hg

theorem gives_index (hplain : (w.guest.table b).metatable = none) (k : Value) :
    (Access.index (.table p) k).Gives w [w.guest.rawGet b k] := by
  intro answer
  show (getField (.table p) k >>= fun v => pure [v]) (along answer) w = _
  simp only [getField, Looks.bind_eq, getHeap, hg.index hplain]
  rfl

/-- The length of a proxy is that of the table behind it. -/
theorem gives_length :
    (Access.length (.table p)).Gives w [.int (Int64.ofNat (w.guest.table b).border)] := by
  intro answer
  have hmeta : w.guest.metamethod (.table p) "__len" = .native (.frozenLength b) :=
    hg.metamethod "__len"
  show (lengthOf (.table p) >>= fun n => pure [Value.int n]) (along answer) w = _
  simp only [lengthOf, Looks.bind_eq, getHeap, hmeta, callGuest_eq, callAlong_frozenLength]
  rfl

end Heap.Guards

/-! ## Mirrors -/

namespace Reproduced

theorem isNil (ht : Reproduced stand source t) (k : Key) :
    (t.get k).isNil = (source.get k).isNil := by
  rw [ht.get, Value.isNil_rename]

theorem sequence (ht : Reproduced stand source t) {n : Int64} (hn : source.Sequence n) :
    t.Sequence n where
  nonneg := hn.nonneg
  has i hi := by
    have hnil : (t.getInt i).isNil = (source.getInt i).isNil := ht.isNil (.int i)
    rw [hnil]
    exact hn.has i hi

theorem entries (ht : Reproduced stand source t) (hi : source.Indexed) :
    t.entries.Perm (source.entries.map fun e => (e.1, e.2.rename stand)) := by
  have hkeys : (source.entries.map fun e => (e.1, e.2.rename stand)).map Prod.fst =
      source.entries.map Prod.fst := by
    simp only [List.map_map]
    rfl
  have hnodup : (source.entries.map fun e => (e.1, e.2.rename stand)).Nodup :=
    List.Nodup.of_map Prod.fst (hkeys ▸ hi.nodup_entries)
  rw [List.perm_ext_iff_of_nodup (List.Nodup.of_map Prod.fst ht.indexed.nodup_entries) hnodup]
  rintro ⟨k, v⟩
  rw [Table.mem_entries ht.indexed, List.mem_map]
  constructor
  · rintro ⟨rfl, hv⟩
    refine ⟨(k, source.get k), (Table.mem_entries hi).mpr ⟨rfl, ?_⟩, ?_⟩
    · rw [← ht.isNil]
      exact hv
    · rw [ht.get]
  · rintro ⟨⟨k', u⟩, hmem, heq⟩
    obtain ⟨rfl, hu⟩ := (Table.mem_entries hi).mp hmem
    cases heq
    exact ⟨ht.get k', by rw [Value.isNil_rename]; exact hu⟩

theorem rawGet {h' : Heap} (ht : Reproduced stand (h.table s) (h'.table b)) (k : Value) :
    h'.rawGet b k = (h.rawGet s k).rename stand := by
  unfold Heap.rawGet
  cases k.toKey? with
  | none => rfl
  | some key => exact ht.get key

/-- A proxy of a table that has the entries of another one shows that one. -/
theorem mirrors (ht : Reproduced stand (h.table s) (w.guest.table b))
    (hg : w.guest.Guards (stand s) m b) (hi : (h.table s).Indexed)
    (hplain : (h.table s).metatable = none) : Mirrors h stand w s where
  index k := by
    refine ⟨h.rawGet s k, Heap.index_plain hplain k _, ?_⟩
    exact ht.rawGet k ▸ hg.gives_index ht.metatable k
  pairs := by
    refine ⟨b, _, fun answer => hg.run_pairs, lists_entries ht.indexed ht.keyed,
      ht.keyed.nodup_toValue ht.indexed, ?_⟩
    have hperm := (ht.entries hi).map fun e => (e.1.toValue, e.2)
    simp only [List.map_map] at hperm ⊢
    exact hperm
  length n hn := by
    have hlength := (ht.sequence hn).border ht.hint
    exact hlength ▸ hg.gives_length
  refuses k x := hg.refuses

end Reproduced

end

end ScriptHost.Guest
