import ScriptHost.Proofs.Guest.Mirrors
import ScriptHost.Proofs.Guest.Nesting

/-!
# The shared environment as a reproduction

The proxies of a shared environment stand one for one for the tables that can be reached from what was assembled. Each
of them shows its table, and goes on to show it as it was when the environment was built.

* `Heap.Reaches`, `Heap.Reads`: the tables that values lead to, and those that reading leads to.
* `Heap.SameMade`: a heap in which the tables that were made are as they were.
* `Heap.Reproduces`: proxies that stand one for one for tables, and show them.
* `Heap.Closed.buildShared_reproduces`: the main result.
-/

namespace ScriptHost.Guest

namespace Heap

/-- Values lead from a table to another one. -/
def Reaches (h : Heap) : Ref → Ref → Prop := Relation.ReflTransGen h.Nests

/-- Reading a field of a table gives another one. -/
def Reads (h : Heap) (p q : Ref) : Prop := ∃ k, h.index (.table p) k = .value (.table q)

/-- The tables that were made from `h` to `made` are in `h'` as they were then. All others may be changed. -/
def SameMade (h made h' : Heap) : Prop := ∀ r, h.Between made r → h'.table r = made.table r

/-- Behind a proxy `stand s` is a table with the entries of the table `s` of `h`. -/
def Shows (h h' : Heap) (stand : Ref → Ref) (s : Ref) : Prop :=
  ∃ m b, h'.Guards (stand s) m b ∧ Reproduced stand (h.table s) (h'.table b)

/-- The tables that can be read from `root` on in `h'` stand one for one for the tables of `h` that can be reached from
`r`. They are their mirrors, whatever becomes of the tables of `h`. -/
structure Reproduces (h : Heap) (r : Ref) (h' : Heap) (root : Ref) (stand : Ref → Ref) : Prop where
  base : stand r = root
  oneToOne : Set.BijOn stand {s | h.Reaches r s} {p | Relation.ReflTransGen h'.Reads root p}
  mirrors : ∀ w : World, h.SameMade h' w.guest → ∀ s, h.Reaches r s → Mirrors h stand w s

/-- Every key of every table is the key of a value. -/
def Keyed (h : Heap) : Prop := ∀ r, (h.table r).Keyed

end Heap

section

variable {h h₁ h₂ h' : Heap} {S : Ref → Prop} {r c p root s d a m b : ℕ} {known known' : Known}
  {stand : Ref → Ref}

/-! ## What is made stays -/

theorem Heap.SameMade.refl : h.SameMade h' h' := fun _ _ => rfl

/-- Writing to a table that was there before changes none that was made since. -/
theorem Heap.sameMade_rawSet (hr : r < h.tables.size) (k : Key) (v : Value) :
    h.SameMade h' (h'.rawSet r k v) := by
  rintro q ⟨hq, -⟩
  refine Heap.table_modifyTable_of_ne _ ?_
  rintro rfl
  exact Nat.lt_irrefl _ (Nat.lt_of_lt_of_le hr hq)

theorem Heap.size_lockStrings (h : Heap) : h.lockStrings.tables.size = h.tables.size := by
  unfold Heap.lockStrings
  extract_lets frozen
  split
  · rfl
  · split
    · exact (Heap.size_modifyTable _).trans (Heap.size_modifyTable _)
    · rfl

/-- What strings have in common is older than what was made. -/
theorem Heap.sameMade_lockStrings (made : Heap)
    (hmeta : ∀ q, made.stringMeta = some q → q < h.tables.size) :
    h.SameMade made made.lockStrings := by
  rintro q ⟨hq, -⟩
  exact table_lockStrings fun hq' => Nat.lt_irrefl _ (Nat.lt_of_lt_of_le (hmeta q hq') hq)

/-! ## What stands for a table -/

/-- The proxy of the copy of a table. -/
def standIn (known known' : Known) (s : Ref) : Ref := ((known[s]?).bind fun d => known'[d]?).getD s

theorem standIn_eq (hs : known[s]? = some d) (hd : known'[d]? = some a) :
    standIn known known' s = a := by
  simp only [standIn, hs, Option.bind_some, hd, Option.getD_some]

/-- Every table that can be reached is copied, and its copy can be reached. -/
theorem CopiedFrom.reached (hcopy : CopiedFrom h S r c known h₁) (hclosed : h.Closed)
    (hs : h.Reaches r s) : ∃ d, known[s]? = some d ∧ h₁.Reaches c d := by
  induction hs with
  | refl => exact ⟨c, hcopy.root, .refl⟩
  | @tail s q _ hnests ih =>
    obtain ⟨k, hget⟩ := hnests
    obtain ⟨d, hd, hpath⟩ := ih
    have hreplica := hcopy.replica s d hd
    obtain ⟨e, he⟩ := hreplica.met k
      ((Table.mem_entryKeys (hclosed.indexed s)).mpr (by rw [hget]; rfl)) q hget
    refine ⟨e, he, hpath.tail ⟨k, ?_⟩⟩
    rw [hreplica.get_eq (hclosed.indexed s), hget, Value.image_table he]

section

variable (hfrozen : FrozenFrom h₁ (h.Copied h₁ c) c p known' h₂)
  (hcopy : CopiedFrom h S r c known h₁) (hclosed : h.Closed)
include hfrozen hcopy hclosed

theorem FrozenFrom.exists_stand (hs : h.Reaches r s) : ∃ d, known[s]? = some d ∧
    known'[d]? = some (standIn known known' s) := by
  obtain ⟨d, hd, hpath⟩ := hcopy.reached hclosed hs
  obtain ⟨a, ha, -⟩ := hfrozen.reached (hcopy.closed hclosed) hpath
  exact ⟨d, hd, standIn_eq hd ha ▸ ha⟩

/-- No proxy stands for two tables. -/
theorem FrozenFrom.injOn_standIn : Set.InjOn (standIn known known') {s | h.Reaches r s} := by
  intro s hs s' hs' heq
  obtain ⟨d, hd, ha⟩ := hfrozen.exists_stand hcopy hclosed hs
  obtain ⟨d', hd', ha'⟩ := hfrozen.exists_stand hcopy hclosed hs'
  obtain rfl : d = d' := hfrozen.proxies.inj d d' _ ha (heq ▸ ha')
  exact hcopy.copies.inj s s' d hd hd'

/-- A value is copied and frozen by putting proxies in place of tables. -/
theorem FrozenFrom.image_image (hs : h.Reaches r s) (k : Key) :
    (((h.table s).get k).image known).image known' =
      ((h.table s).get k).rename (standIn known known') := by
  cases hget : (h.table s).get k with
  | table q =>
    obtain ⟨e, he, ha⟩ := hfrozen.exists_stand hcopy hclosed (hs.tail ⟨k, hget⟩)
    rw [Value.image_table he, Value.image_table ha, Value.rename]
  | _ => rfl

theorem FrozenFrom.reproduced (hkeyed : h.Keyed) (hs : h.Reaches r s) (hd : known[s]? = some d)
    (ha : known'[d]? = some a) :
    Reproduced (standIn known known') (h.table s) (h₂.table d) := by
  have hreplica := hcopy.replica s d hd
  obtain ⟨m, hseal⟩ := hfrozen.guarded d a ha
  have hcopied := (hcopy.closed hclosed).indexed d
  refine ⟨fun k => ?_, hseal.behind.indexed, fun k hk => ?_,
    hseal.behind.metatable.trans hreplica.metatable, hseal.behind.hint.trans hreplica.hint⟩
  · rw [hseal.behind.get_eq hcopied fun _ h => h, hreplica.get_eq (hclosed.indexed s)]
    exact hfrozen.image_image hcopy hclosed hs k
  · rw [hseal.behind.keys_eq] at hk
    exact hkeyed s k (hreplica.mem_keys hk)

/-- What was made for a table shows it as long as it stays. -/
theorem FrozenFrom.shows (hkeyed : h.Keyed) (hsame : h.SameMade h₂ h') (hs : h.Reaches r s) :
    h.Shows h' (standIn known known') s := by
  obtain ⟨d, hd, ha⟩ := hfrozen.exists_stand hcopy hclosed hs
  obtain ⟨m, hseal⟩ := hfrozen.guarded d _ ha
  have hcopyPlace := hcopy.copies.known s d hd
  have hproxyPlace := hfrozen.proxies.known d _ ha
  have hsize := hcopy.copies.size
  -- the proxy, its metatable and the table behind it were all made after `h`
  have hproxy := hsame _ ⟨Nat.le_trans hsize hproxyPlace.2.1, hproxyPlace.2.2⟩
  have hmeta := hsame m ⟨Nat.le_trans hsize hseal.metatable.1, hseal.metatable.2⟩
  have hbehind := hsame d
    ⟨hcopyPlace.2.1, Nat.lt_of_lt_of_le hcopyPlace.2.2 hfrozen.proxies.size⟩
  refine ⟨m, d, Heap.Guards.congr (h := h₂) hseal.guards hproxy hmeta, ?_⟩
  rw [hbehind]
  exact hfrozen.reproduced hcopy hclosed hkeyed hs hd ha

end

/-! ## One for one -/

theorem Heap.Shows.index (hshows : h.Shows h' stand s) (k : Value) :
    h'.index (.table (stand s)) k = .value ((h.rawGet s k).rename stand) := by
  obtain ⟨m, b, hg, ht⟩ := hshows
  rw [hg.index ht.metatable, ht.rawGet]

/-- Reading leads from table to table as values do. -/
theorem Heap.Shows.reads (hshows : h.Shows h' stand s) (hkeyed : h.Keyed) (hclosed : h.Closed) :
    h'.Reads (stand s) p ↔ ∃ q, h.Nests s q ∧ stand q = p := by
  constructor
  · rintro ⟨k, hread⟩
    rw [hshows.index] at hread
    have hvalue : (h.rawGet s k).rename stand = .table p := by injection hread
    unfold Heap.rawGet at hvalue
    cases hkey : k.toKey? with
    | none =>
      rw [hkey] at hvalue
      cases hvalue
    | some key =>
      simp only [hkey] at hvalue
      cases hget : (h.table s).get key with
      | table q =>
        rw [hget] at hvalue
        exact ⟨q, ⟨key, hget⟩, Value.table.inj hvalue⟩
      | _ =>
        rw [hget] at hvalue
        cases hvalue
  · rintro ⟨q, ⟨key, hget⟩, rfl⟩
    -- a key under which a table is kept is among the keys of the table
    have hmem : key ∈ (h.table s).keys := by
      by_contra hnot
      rw [(hclosed.indexed s).get_eq_nil hnot] at hget
      cases hget
    refine ⟨key.toValue, (hshows.index _).trans ?_⟩
    simp only [Heap.rawGet, (hkeyed s).toKey? hmem, hget]
    rfl

/-- Tables that are shown one for one are reproduced. -/
theorem Heap.Reproduces.of_shows (hclosed : h.Closed) (hkeyed : h.Keyed)
    (hplain : ∀ s, h.Reaches r s → (h.table s).metatable = none) (hroot : stand r = root)
    (hinj : Set.InjOn stand {s | h.Reaches r s})
    (hshows : ∀ h'', h.SameMade h' h'' → ∀ s, h.Reaches r s → h.Shows h'' stand s) :
    h.Reproduces r h' root stand where
  base := hroot
  oneToOne := by
    have hnow := hshows h' Heap.SameMade.refl
    refine ⟨fun s hs => ?_, hinj, fun p hp => ?_⟩
    · induction hs with
      | refl => exact hroot ▸ .refl
      | @tail s q hpath hnests ih =>
        exact ih.tail (((hnow s hpath).reads hkeyed hclosed).mpr ⟨q, hnests, rfl⟩)
    · induction hp with
      | refl => exact ⟨r, .refl, hroot⟩
      | tail _ hread ih =>
        obtain ⟨s, hs, rfl⟩ := ih
        obtain ⟨q, hnests, rfl⟩ := ((hnow s hs).reads hkeyed hclosed).mp hread
        exact ⟨q, hs.tail hnests, rfl⟩
  mirrors w hsame s hs := by
    obtain ⟨m, b, hg, ht⟩ := hshows w.guest hsame s hs
    exact ht.mirrors hg (hclosed.indexed s) (hplain s hs)

/-- A table that is copied and frozen is reproduced by what the two passes come to. -/
theorem Heap.Closed.freezeCopy_shows (hclosed : h.Closed) (hkeyed : h.Keyed) (hr : r < h.tables.size) :
    ∃ copied frozen stand, Ends copyVisit r { heap := h } copied ∧
      Ends freezeVisit copied.1 { heap := copied.2.heap } frozen ∧
      h.copyTable r = (copied.1, copied.2.heap) ∧
      copied.2.heap.freezeTable copied.1 = (frozen.1, frozen.2.heap) ∧
      frozen.2.heap.stringMeta = h.stringMeta ∧ stand r = frozen.1 ∧
      Set.InjOn stand {s | h.Reaches r s} ∧
      ∀ h', h.SameMade frozen.2.heap h' → ∀ s, h.Reaches r s → h.Shows h' stand s := by
  obtain ⟨copied, hcopyEnds, hcopyEq⟩ := hclosed.copyTable_ends hr
  obtain ⟨known, hcopy⟩ := copyTable_spec (S := fun _ => True) hclosed (fun _ _ _ _ _ => trivial)
    trivial hr
  rw [hcopyEq] at hcopy
  have hcopied := hcopy.closed hclosed
  have hplace := hcopy.copies.known r _ hcopy.root
  obtain ⟨frozen, hfreezeEnds, hfreezeEq⟩ := hcopied.freezeTable_ends hplace.2.2
  obtain ⟨known', hfrozen⟩ := freezeTable_spec hcopied (hcopy.copied_of_get hclosed)
    ⟨hplace.2, .refl⟩ hplace.2.2
  rw [hfreezeEq] at hfrozen
  refine ⟨copied, frozen, standIn known known', hcopyEnds, hfreezeEnds, hcopyEq, hfreezeEq,
    hfrozen.frame.stringMeta.trans hcopy.frame.stringMeta, standIn_eq hcopy.root hfrozen.root,
    hfrozen.injOn_standIn hcopy hclosed, fun h' hsame s hs => ?_⟩
  exact hfrozen.shows hcopy hclosed hkeyed hsame hs

end

namespace Heap

variable {h : Heap} {bindings : List Binding} {P : Table → Prop} {r : ℕ}

/-! ## All tables of a heap -/

/-- What holds of all tables, old ones and new ones. -/
theorem forall_allocTable (hall : ∀ r, P (h.table r)) {t : Table} (ht : P t) :
    ∀ r, P ((h.allocTable t).2.table r) := by
  intro r
  rw [table_allocTable]
  split
  · exact ht
  · exact hall r

theorem forall_assembleShared (hnamed : ∀ fields, P (namedTable fields))
    (hall : ∀ r, P (h.table r)) : ∀ r, P ((h.assembleShared bindings).2.table r) := by
  unfold assembleShared
  extract_lets
  exact forall_allocTable (forall_allocTable (forall_allocTable hall (hnamed _)) (hnamed _)) (hnamed _)

theorem forall_rawSetText (hset : ∀ t name v, P t → P (Table.setText t name v)) (hempty : P {})
    (hall : ∀ r, P (h.table r)) (q : Ref) (name : String) (v : Value) :
    ∀ r, P ((h.rawSetText q name v).table r) := by
  intro r
  by_cases hr : r = q
  · subst hr
    by_cases hlt : r < h.tables.size
    · rw [rawSetText, table_modifyTable _ hlt, if_pos rfl]
      exact hset _ _ _ (hall r)
    · rw [table_of_size_le (by rw [rawSetText, size_modifyTable]; exact Nat.le_of_not_lt hlt)]
      exact hempty
  · rw [rawSetText, table_modifyTable_of_ne _ hr]
    exact hall r

theorem forall_addNamespaces (hnamed : ∀ fields, P (namedTable fields))
    (hset : ∀ t name v, P t → P (Table.setText t name v)) (hall : ∀ r, P (h.table r)) (q : Ref)
    (entries : List (String × List (String × Value))) :
    ∀ r, P ((entries.foldl (fun h entry => h.addNamespace q entry) h).table r) := by
  induction entries generalizing h with
  | nil => exact hall
  | cons entry entries ih =>
    exact ih (forall_rawSetText hset (hnamed []) (forall_allocTable hall (hnamed _)) _ _ _)

theorem forall_addStringMeta (hnamed : ∀ fields, P (namedTable fields))
    (hall : ∀ r, P (h.table r)) : ∀ r, P (h.addStringMeta.table r) :=
  forall_allocTable hall (hnamed _)

/-- What holds of all tables of a new interpreter, by the way they are made. -/
theorem forall_start (hnamed : ∀ fields, P (namedTable fields))
    (hset : ∀ t name v, P t → P (Table.setText t name v)) : ∀ r, P (start.table r) := by
  have hnone : ∀ r, P (({} : Heap).table r) := fun r => by
    rw [table_of_size_le (Nat.zero_le r)]
    exact hnamed []
  have hglobals : ∀ r, P (Heap.table { (({} : Heap).allocTable
      (namedTable (natives .base baseNames))).2 with globals := (0 : Ref) } r) :=
    forall_allocTable hnone (hnamed (natives .base baseNames))
  have hspaces := forall_addNamespaces hnamed hset hglobals 0 namespaces
  have hnames := forall_rawSetText hset (hnamed []) (forall_rawSetText hset (hnamed []) hspaces 0
    "_G" (.table (0 : Ref))) 0 "_VERSION" (.ofText "Lua 5.4")
  exact forall_addStringMeta hnamed hnames

/-- A table that was there before is left as it was. -/
theorem table_assembleShared (hr : r < h.tables.size) :
    (h.assembleShared bindings).2.table r = h.table r ∧
      r < (h.assembleShared bindings).2.tables.size := by
  have hstep : ∀ (h' : Heap) (t : Table), h'.table r = h.table r ∧ r < h'.tables.size →
      (h'.allocTable t).2.table r = h.table r ∧ r < (h'.allocTable t).2.tables.size := by
    rintro h' t ⟨hsame, hlt⟩
    rw [table_allocTable, if_neg (Nat.ne_of_lt hlt), size_allocTable]
    exact ⟨hsame, Nat.lt_succ_of_lt hlt⟩
  unfold assembleShared
  extract_lets
  exact hstep _ _ (hstep _ _ (hstep _ _ ⟨rfl, hr⟩))

/-- A single binding is what its name leads to. -/
theorem rawGet_assembleShared (name : String) (v : Value) :
    (h.assembleShared [(name, v)]).2.rawGet (h.assembleShared [(name, v)]).1 (.ofText name) = v := by
  unfold assembleShared
  extract_lets clock namespaces
  show (Heap.table _ _).getText name = v
  rw [table_allocTable_self, Table.getText_namedTable, List.reverse_append, List.reverse_singleton,
    List.singleton_append, List.lookup_cons, beq_self_eq_true]
  rfl

/-! ## A table that has itself as a value -/

/-- A new interpreter with one more table, which has itself as a value. -/
def ring : Ref × Heap :=
  let (r, h) := start.allocTable {}
  (r, h.rawSetText r "self" (.table r))

/-- The host binds that table. -/
def ringBindings : List Binding := [("ring", .table ring.1)]

/-- What is assembled from it. -/
abbrev ringSource : Ref × Heap := ring.2.assembleShared ringBindings

/-- The environment that is built from it. -/
abbrev ringBuilt : Heap := ring.2.buildShared ringBindings

theorem forall_ring (hnamed : ∀ fields, P (namedTable fields))
    (hset : ∀ t name v, P t → P (Table.setText t name v)) : ∀ r, P (ring.2.table r) :=
  forall_rawSetText hset (hnamed []) (forall_allocTable (forall_start hnamed hset) (hnamed [])) _ _ _

theorem closed_ring : ring.2.Closed ∧ ring.1 < ring.2.tables.size := by
  have hsize : ring.1 < (start.allocTable {}).2.tables.size := by
    rw [size_allocTable]
    exact Nat.lt_succ_self _
  refine ⟨(closed_start.allocTable Table.within_empty Table.indexed_empty).rawSetText _ _
    (Value.within_table.mpr hsize), ?_⟩
  show _ < ((start.allocTable {}).2.modifyTable _ _).tables.size
  rw [size_modifyTable]
  exact hsize

theorem ring_self : ring.2.rawGet ring.1 (.ofText "self") = .table ring.1 := by
  have hlt : ring.1 < (start.allocTable {}).2.tables.size := by
    rw [size_allocTable]
    exact Nat.lt_succ_self _
  show (((start.allocTable {}).2.modifyTable ring.1 _).table ring.1).getText "self" = _
  rw [table_modifyTable _ hlt, if_pos rfl, Table.setText, Table.getText,
    Table.get_set (forall_allocTable closed_start.indexed Table.indexed_empty _), if_pos rfl]
  rfl

/-! ## The shared environment -/

/-- The passes that build the shared environment. -/
theorem buildShared_eq {copied frozen : Ref × Heap}
    (hcopied : (h.assembleShared bindings).2.copyTable (h.assembleShared bindings).1 = copied)
    (hfrozen : copied.2.freezeTable copied.1 = frozen) :
    h.buildShared bindings = lockStrings { frozen.2 with shared := frozen.1 } := by
  subst hcopied hfrozen
  rfl

/-- **The shared environment reproduces what is assembled.** Copying and freezing it end. The proxies that can be read
from the root stand one for one for the tables that can be reached from the assembled one; they show guest code the
fields, the entries and the lengths of these as they are when the environment is built, whatever becomes of them later,
and refuse every assignment. -/
theorem Closed.buildShared_reproduces (hclosed : h.Closed) (hkeyed : h.Keyed)
    (hbindings : ∀ b ∈ bindings, b.2.Within (· < h.tables.size))
    (hplain : ∀ s, (h.assembleShared bindings).2.Reaches (h.assembleShared bindings).1 s →
      ((h.assembleShared bindings).2.table s).metatable = none) :
    ∃ copied frozen stand,
      Ends copyVisit (h.assembleShared bindings).1 { heap := (h.assembleShared bindings).2 } copied ∧
      Ends freezeVisit copied.1 { heap := copied.2.heap } frozen ∧
      h.buildShared bindings = lockStrings { frozen.2.heap with shared := frozen.1 } ∧
      (h.assembleShared bindings).2.Reproduces (h.assembleShared bindings).1
        (h.buildShared bindings) (h.buildShared bindings).shared stand := by
  obtain ⟨hassembled, hlt⟩ := hclosed.assembleShared hbindings
  have hkeys : (h.assembleShared bindings).2.Keyed :=
    forall_assembleShared Table.keyed_namedTable hkeyed
  obtain ⟨copied, frozen, stand, hcopyEnds, hfreezeEnds, hcopyEq, hfreezeEq, hmeta, hbase, hinj, hshows⟩ :=
    hassembled.freezeCopy_shows hkeys hlt
  have hbuilt : h.buildShared bindings = lockStrings { frozen.2.heap with shared := frozen.1 } :=
    buildShared_eq hcopyEq hfreezeEq
  refine ⟨copied, frozen, stand, hcopyEnds, hfreezeEnds, hbuilt, ?_⟩
  rw [hbuilt, Vault.Built.shared_lockStrings]
  refine Reproduces.of_shows hassembled hkeys hplain hbase hinj fun h' hsame => ?_
  -- what is made by the passes is not touched when strings are locked
  refine hshows h' fun q hq => ?_
  have hlocked : (h.assembleShared bindings).2.SameMade _ _ :=
    sameMade_lockStrings { frozen.2.heap with shared := frozen.1 }
      fun q hq => hassembled.stringMeta q (hmeta ▸ hq)
  exact (hsame q ⟨hq.1, (size_lockStrings _).symm ▸ hq.2⟩).trans (hlocked q hq)

/-- The table is shown by a proxy that has itself as a value, even when it has lost its own. -/
theorem buildShared_reproduces_ring : ring.2.Closed ∧ ring.2.Keyed ∧
    (∀ b ∈ ringBindings, b.2.Within (· < ring.2.tables.size)) ∧
    (∀ r, (ringSource.2.table r).metatable = none) ∧
    ∃ stand, ringSource.2.Reproduces ringSource.1 ringBuilt ringBuilt.shared stand ∧
      ∀ w : World, w.guest = ringBuilt.rawSet ring.1 (.str "self".toUTF8) .nil →
        (Access.index (.table (stand ring.1)) (.ofText "self")).Gives w [.table (stand ring.1)] := by
  have hkeyed : ring.2.Keyed := fun r =>
    (forall_ring (P := fun t => t.Indexed ∧ t.Keyed)
      (fun fields => ⟨Table.indexed_namedTable fields, Table.keyed_namedTable fields⟩)
      (fun t name v ht => ⟨ht.1.setText name v, ht.2.setText ht.1 name v⟩) r).2
  have hbindings : ∀ b ∈ ringBindings, b.2.Within (· < ring.2.tables.size) := by
    intro b hb
    cases List.mem_singleton.mp hb
    exact Value.within_table.mpr closed_ring.2
  have hplain : ∀ r, (ringSource.2.table r).metatable = none :=
    forall_assembleShared (P := fun t => t.metatable = none) Table.metatable_namedTable
      (forall_ring (P := fun t => t.metatable = none) Table.metatable_namedTable
        fun t name v ht => Table.metatable_set.trans ht)
  obtain ⟨copied, frozen, stand, -, -, -, hreproduces⟩ :=
    Closed.buildShared_reproduces closed_ring.1 hkeyed hbindings fun s _ => hplain s
  refine ⟨closed_ring.1, hkeyed, hbindings, hplain, stand, hreproduces, fun w hw => ?_⟩
  -- the table is older than what is made, and can be reached by its name
  obtain ⟨hold, hlt⟩ := table_assembleShared (h := ring.2) (r := ring.1) closed_ring.2
  have hreaches : ringSource.2.Reaches ringSource.1 ring.1 :=
    .single ⟨.str "ring".toUTF8, rawGet_assembleShared "ring" (.table ring.1)⟩
  have hmirrors := hreproduces.mirrors w (hw ▸ sameMade_rawSet hlt _ _) ring.1 hreaches
  obtain ⟨v, hread, hgives⟩ := hmirrors.index (.ofText "self")
  have hvalue : ringSource.2.index (.table ring.1) (.ofText "self") = .value (.table ring.1) := by
    rw [index, maxChain, index_plain (hplain _)]
    exact congrArg _ ((congrArg (fun t => Table.get t _) hold).trans ring_self)
  rw [hvalue] at hread
  cases hread
  exact hgives

end Heap

end ScriptHost.Guest
