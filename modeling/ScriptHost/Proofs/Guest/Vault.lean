import Mathlib.Logic.Relation
import ScriptHost.Proofs.Guest.Guarded

/-!
# The shared environment as it is built

Building the shared environment makes four sorts of tables: the tables behind the frozen ones, their proxies,
the proxies' metatables, and copies that nothing leads to. All other tables are outside. The proxies are the only
new tables that any table outside, or any table behind a proxy, refers to.

* `Vault`, `Vault.Outside`, `Vault.Early`, `Vault.Open`: the sorts of tables.
* `Vault.Built`: what holds of a heap when the shared environment has been built in it.
* `Vault.Shows`: what is read at the proxies.
* `Heap.Closed.buildShared`: the environment of every closed heap and all bindings.
-/

namespace ScriptHost.Guest

/-- The tables that were made for a shared environment: their places from `first` to `last`, which of them
are proxies, and which are behind one. -/
structure Vault where
  first : ℕ
  last : ℕ
  proxy : Ref → Prop
  behind : Ref → Prop

namespace Vault

/-- A table that was there before, or was made later. -/
def Outside (a : Vault) (r : Ref) : Prop := r < a.first ∨ a.last ≤ r

/-- What tables refer to at first: a table that was there before, or a proxy. -/
def Early (a : Vault) (r : Ref) : Prop := r < a.first ∨ a.proxy r

/-- A table that anybody may refer to. -/
def Open (a : Vault) (r : Ref) : Prop := a.Outside r ∨ a.proxy r

/-- A proxy, its metatable and the table behind it. -/
structure Shuts (a : Vault) (h : Heap) (p m b : Ref) : Prop where
  guards : h.Guards p m b
  /-- Nobody may refer to the metatable. -/
  secret : ¬a.Open m ∧ ¬a.behind m
  behind : a.behind b

/-- Reading at a proxy `p` can give `q`. -/
def Opens (a : Vault) (h : Heap) (p q : Ref) : Prop :=
  a.proxy p ∧ ∃ m b k, a.Shuts h p m b ∧ (h.table b).get k = .table q

/-- A shared environment that has just been built. -/
structure Built (a : Vault) (h : Heap) : Prop where
  last : a.last = h.tables.size
  root : a.proxy h.shared
  proxy : ∀ p, a.proxy p → ¬a.Outside p ∧ ¬a.behind p ∧ ∃ m b, a.Shuts h p m b
  reached : ∀ p, a.proxy p → Relation.ReflTransGen (a.Opens h) h.shared p
  fronted : ∀ b, a.behind b → ∃ p m, a.proxy p ∧ a.Shuts h p m b
  inside : ∀ b, a.behind b → ¬a.Outside b
  plain : ∀ b, a.behind b → (h.table b).metatable = none
  indexed : ∀ r, a.Outside r ∨ a.behind r → (h.table r).Indexed
  /-- The values behind a proxy are frozen. -/
  nested : ∀ b, a.behind b → ∀ k q, (h.table b).get k = .table q → a.proxy q
  behind : ∀ b, a.behind b → (h.table b).Within a.Early
  outside : ∀ r, a.Outside r → (h.table r).Within a.Early
  stringMeta : ∀ r, h.stringMeta = some r → a.Outside r

end Vault

theorem Vault.Early.isOpen {a : Vault} {r : Ref} (h : a.Early r) : a.Open r := h.imp_left .inl

theorem Vault.Shuts.congr {a : Vault} {h h' : Heap} {p m b : ℕ} (hs : a.Shuts h p m b)
    (hp : h'.table p = h.table p) (hm : h'.table m = h.table m) : a.Shuts h' p m b :=
  ⟨hs.guards.congr hp hm, hs.secret, hs.behind⟩

/-! ## What filled tables refer to -/

theorem Filled.within {known : Known} {source base t : Table} {S : Ref → Prop}
    (h : Filled known source base source.entryKeys t) (hsource : source.Indexed)
    (hbase : ∀ k, source.get k = .nil → base.get k = .nil)
    (hkeys : ∀ k ∈ t.keys, k.toValue.Within S)
    (hplain : ∀ k, (∀ q, source.get k ≠ .table q) → (source.get k).Within S)
    (hknown : ∀ q c : Ref, known[q]? = some c → S c)
    (hmeta : base.metatable = none) : t.Within S where
  slots e he := by
    obtain ⟨k, v⟩ := e
    refine ⟨hkeys k (List.mem_map.mpr ⟨(k, v), he, rfl⟩), ?_⟩
    rw [← h.indexed.get_of_mem he, h.get_eq hsource hbase]
    -- a table among the values has become another one, all else is as it was
    by_cases htable : ∃ q, source.get k = .table q
    · obtain ⟨q, hq⟩ := htable
      obtain ⟨c, hc⟩ := h.met k ((Table.mem_entryKeys hsource).mpr (by rw [hq]; rfl)) q hq
      rw [hq, Value.image_table hc]
      exact Value.within_table.mpr (hknown q c hc)
    · have hnone : ∀ q, source.get k ≠ .table q := fun q hq => htable ⟨q, hq⟩
      rw [Value.image_of_not_table hnone]
      exact hplain k hnone
  metatable m hm := by
    rw [h.metatable, hmeta] at hm
    cases hm

/-- A key of a table refers to what the table refers to. -/
theorem Table.Within.key {t : Table} {S : Ref → Prop} (h : t.Within S) {k : Key} (hk : k ∈ t.keys) :
    k.toValue.Within S := by
  obtain ⟨e, he, rfl⟩ := List.mem_map.mp hk
  exact (h.slots e he).1

theorem Replica.mem_keys {known : Known} {source copy : Table} (h : Replica known source copy)
    {k : Key} (hk : k ∈ copy.keys) : k ∈ source.keys := by
  have hkeys : copy.keys = [] ++ source.entryKeys.filter (· ∉ ([] : List Key)) := h.keys
  rw [hkeys, List.nil_append] at hk
  exact (List.filter_sublist.map Prod.fst).subset (List.mem_filter.mp hk).1

/-- Freezing sets no new keys. -/
theorem Filled.keys_eq {known : Known} {source t : Table}
    (h : Filled known source source source.entryKeys t) : t.keys = source.keys := by
  rw [h.keys, List.filter_eq_nil_iff.mpr, List.append_nil]
  intro k hk hnot
  have hmem : k ∈ source.keys := (List.filter_sublist.map Prod.fst).subset hk
  simp [hmem] at hnot

/-! ## After the copy -/

section

variable {h h₁ h₂ : Heap} {S T : Ref → Prop} {r c p : Ref} {known known' : Known}

theorem CopiedFrom.plain (hcopy : CopiedFrom h S r c known h₁) {d : ℕ} (hd : h.tables.size ≤ d) :
    (h₁.table d).metatable = none := by
  by_cases hlt : d < h₁.tables.size
  · obtain ⟨q, hq⟩ := hcopy.copies.onto d hd hlt
    exact (hcopy.replica q d hq).metatable
  · rw [Heap.table_of_size_le (Nat.le_of_not_lt hlt)]

/-- What a copy holds, its keys apart: copies, and what the original holds. -/
theorem CopiedFrom.exists_of_get (hcopy : CopiedFrom h S r c known h₁) (hclosed : h.Closed) {d : ℕ}
    (hd : h.tables.size ≤ d) (k : Key) :
    (∃ e : ℕ, (h₁.table d).get k = .table e ∧ h.tables.size ≤ e ∧ e < h₁.tables.size) ∨
      (∀ e, (h₁.table d).get k ≠ .table e) ∧ ((h₁.table d).get k).Within (· < h.tables.size) := by
  by_cases hlt : d < h₁.tables.size
  · obtain ⟨q, hq⟩ := hcopy.copies.onto d hd hlt
    have hreplica := hcopy.replica q d hq
    have hindexed := hclosed.indexed q
    rw [hreplica.get_eq hindexed]
    by_cases htable : ∃ q', (h.table q).get k = .table q'
    · obtain ⟨q', hq'⟩ := htable
      obtain ⟨e, he⟩ := hreplica.met k ((Table.mem_entryKeys hindexed).mpr (by rw [hq']; rfl)) q' hq'
      exact .inl ⟨e, hq' ▸ Value.image_table he, (hcopy.copies.known q' e he).2⟩
    · have hnone : ∀ q', (h.table q).get k ≠ .table q' := fun q' hq' => htable ⟨q', hq'⟩
      rw [Value.image_of_not_table hnone]
      exact .inr ⟨hnone, (hclosed.within q).get k⟩
  · right
    rw [Heap.table_of_size_le (Nat.le_of_not_lt hlt), Table.get_empty]
    exact ⟨fun _ => Value.noConfusion, Value.within_of_none rfl⟩

theorem CopiedFrom.key_within (hcopy : CopiedFrom h S r c known h₁) (hclosed : h.Closed) {d : ℕ}
    (hd : h.tables.size ≤ d) {k : Key} (hk : k ∈ (h₁.table d).keys) :
    k.toValue.Within (· < h.tables.size) := by
  by_cases hlt : d < h₁.tables.size
  · obtain ⟨q, hq⟩ := hcopy.copies.onto d hd hlt
    exact (hclosed.within q).key ((hcopy.replica q d hq).mem_keys hk)
  · rw [Heap.table_of_size_le (Nat.le_of_not_lt hlt)] at hk
    exact absurd hk (by simp [Table.keys])

theorem CopiedFrom.closed (hcopy : CopiedFrom h S r c known h₁) (hclosed : h.Closed) :
    h₁.Closed where
  within d := by
    have hle : ∀ a : ℕ, a < h.tables.size → a < h₁.tables.size := fun a ha =>
      Nat.lt_of_lt_of_le ha hcopy.copies.size
    by_cases hd : d < h.tables.size
    · exact hcopy.copies.tables d hd ▸ (hclosed.within d).mono hle
    · by_cases hlt : d < h₁.tables.size
      · -- each new table is the copy of an old one
        obtain ⟨q, hq⟩ := hcopy.copies.onto d (Nat.le_of_not_lt hd) hlt
        refine Filled.within (hcopy.replica q d hq) (hclosed.indexed q)
          (fun _ _ => Table.get_empty) (fun k hk => ?_)
          (fun k _ => ((hclosed.within q).get k).mono hle)
          (fun q c hq => (hcopy.copies.known q c hq).2.2) rfl
        exact (hcopy.key_within hclosed (Nat.le_of_not_lt hd) hk).mono hle
      · rw [Heap.table_of_size_le (Nat.le_of_not_lt hlt)]
        exact Table.within_empty
  indexed d := by
    by_cases hd : d < h.tables.size
    · exact hcopy.copies.tables d hd ▸ hclosed.indexed d
    · by_cases hlt : d < h₁.tables.size
      · obtain ⟨q, hq⟩ := hcopy.copies.onto d (Nat.le_of_not_lt hd) hlt
        exact (hcopy.replica q d hq).indexed
      · rw [Heap.table_of_size_le (Nat.le_of_not_lt hlt)]
        exact Table.indexed_empty
  stringMeta a ha := Nat.lt_of_lt_of_le (hclosed.stringMeta a (hcopy.frame.stringMeta ▸ ha))
    hcopy.copies.size

/-! ## After freezing -/

/-- A place of a copy that was made between two heaps. -/
def Heap.Between (h h₁ : Heap) (r : Ref) : Prop := h.tables.size ≤ r ∧ r < h₁.tables.size

/-- A table has another one as a value. -/
def Heap.Nests (h : Heap) (r q : Ref) : Prop := ∃ k, (h.table r).get k = .table q

/-- A table of a copy: it can be reached from the copy's root `r`. -/
def Heap.Copied (h h₁ : Heap) (r q : Ref) : Prop :=
  h.Between h₁ q ∧ Relation.ReflTransGen h₁.Nests r q

/-- Of a copy, values lead to tables of the copy only. -/
theorem CopiedFrom.copied_of_get (hcopy : CopiedFrom h S r c known h₁) (hclosed : h.Closed) (d : Ref)
    (k : Key) (q : Ref) (hd : h.Copied h₁ c d) (hget : (h₁.table d).get k = .table q) :
    h.Copied h₁ c q := by
  obtain ⟨hplace, hpath⟩ := hd
  refine ⟨?_, hpath.tail ⟨k, hget⟩⟩
  rcases hcopy.exists_of_get hclosed hplace.1 k with ⟨e, he, hplace⟩ | ⟨hnone, -⟩
  · exact Value.table.inj (he.symm.trans hget) ▸ hplace
  · exact absurd hget (hnone q)

/-- The sorts of tables after copying and freezing. -/
def Vault.ofKnown (h h₂ : Heap) (known : Known) : Vault where
  first := h.tables.size
  last := h₂.tables.size
  proxy p := ∃ q : Ref, known[q]? = some p
  behind q := ∃ p : Ref, known[q]? = some p

theorem FrozenFrom.shuts (hfrozen : FrozenFrom h₁ (h.Copied h₁ r) r p known h₂) {q a : Ref}
    (hq : known[q]? = some a) : ∃ m, (Vault.ofKnown h h₂ known).Shuts h₂ a m q := by
  obtain ⟨m, hseal⟩ := hfrozen.guarded q a hq
  have hplace := hfrozen.proxies.known q a hq
  obtain ⟨hfirst, -⟩ := hfrozen.proxies.among q a hq
  refine ⟨m, hseal.guards, ⟨?_, ?_⟩, ⟨a, hq⟩⟩
  -- the metatable was made after the heap `h` and is no proxy
  · rintro ((hlt | hle) | ⟨q', hq'⟩)
    · have hm := Nat.le_trans (Nat.le_trans hfirst.1 (Nat.le_of_lt hfirst.2)) hseal.metatable.1
      exact Nat.lt_irrefl _ (Nat.lt_of_lt_of_le hlt hm)
    · exact Nat.lt_irrefl _ (Nat.lt_of_lt_of_le hseal.metatable.2 hle)
    · -- a proxy has a metatable, the metatable of a proxy has none
      obtain ⟨m', hseal'⟩ := hfrozen.guarded q' m hq'
      have hnone := congrArg Table.metatable (hseal.guards.2.symm.trans hseal'.guards.1)
      rw [Table.metatable_namedTable] at hnone
      cases hnone
  · rintro ⟨a', ha'⟩
    exact Nat.lt_irrefl _
      (Nat.lt_of_lt_of_le (hfrozen.proxies.known m a' ha').1 hseal.metatable.1)

/-- Where a table was met, there is the proxy of every table that it has as a value. -/
theorem FrozenFrom.get_table (hfrozen : FrozenFrom h₁ (h.Copied h₁ r) r p known h₂)
    (hclosed : h₁.Closed) {q a : Ref} (hq : known[q]? = some a) {k : Key} {e : Ref}
    (hget : (h₁.table q).get k = .table e) :
    ∃ c, known[e]? = some c ∧ (h₂.table q).get k = .table c := by
  obtain ⟨m, hseal⟩ := hfrozen.guarded q a hq
  have hindexed := hclosed.indexed q
  obtain ⟨c, hc⟩ := hseal.behind.met k
    ((Table.mem_entryKeys hindexed).mpr (by rw [hget]; rfl)) e hget
  refine ⟨c, hc, ?_⟩
  rw [hseal.behind.get_eq hindexed fun _ h => h, hget, Value.image_table hc]

/-- The values of a table that was met are proxies, where they are tables. -/
theorem FrozenFrom.nested (hfrozen : FrozenFrom h₁ (h.Copied h₁ r) r p known h₂)
    (hclosed : h₁.Closed) {q a : Ref} (hq : known[q]? = some a) {k : Key} {c : Ref}
    (hget : (h₂.table q).get k = .table c) : ∃ e : Ref, known[e]? = some c := by
  obtain ⟨m, hseal⟩ := hfrozen.guarded q a hq
  obtain ⟨e, -, he⟩ := hseal.behind.exists_of_get (hclosed.indexed q) (fun _ h => h) hget
  exact ⟨e, he⟩

/-- A table that was met stays a table of the same keys; its values are proxies and what the original holds. -/
theorem FrozenFrom.behind (hfrozen : FrozenFrom h₁ (h.Copied h₁ r) r p known h₂)
    (hcopy : CopiedFrom h S c r known' h₁) (hclosed : h.Closed) {q a : Ref}
    (hq : known[q]? = some a) : (h₂.table q).Within (Vault.ofKnown h h₂ known).Early := by
  obtain ⟨m, hseal⟩ := hfrozen.guarded q a hq
  obtain ⟨hfirst, -⟩ := hfrozen.proxies.among q a hq
  have hindexed := (hcopy.closed hclosed).indexed q
  have hold : ∀ e : ℕ, e < h.tables.size → (Vault.ofKnown h h₂ known).Early e :=
    fun e he => .inl he
  -- keys are those of the original, and so are the values that are no tables
  refine Filled.within hseal.behind hindexed (fun _ h => h) (fun k hk => ?_) (fun k hk => ?_)
    (fun q' a' hq' => .inr ⟨q', hq'⟩) (hcopy.plain hfirst.1)
  · rw [hseal.behind.keys_eq] at hk
    exact (hcopy.key_within hclosed hfirst.1 hk).mono hold
  · rcases hcopy.exists_of_get hclosed hfirst.1 k with ⟨e, he, -⟩ | ⟨-, hwithin⟩
    · exact absurd he (hk e)
    · exact hwithin.mono hold

/-- Reading can lead from the root's proxy to the proxy of every table of the copy. -/
theorem FrozenFrom.reached (hfrozen : FrozenFrom h₁ (h.Copied h₁ r) r p known h₂)
    (hclosed : h₁.Closed) {q : Ref} (hq : Relation.ReflTransGen h₁.Nests r q) :
    ∃ a, known[q]? = some a ∧
      Relation.ReflTransGen ((Vault.ofKnown h h₂ known).Opens h₂) p a := by
  induction hq with
  | refl => exact ⟨p, hfrozen.root, .refl⟩
  | tail _ hnests ih =>
    obtain ⟨k, hget⟩ := hnests
    obtain ⟨a, ha, hpath⟩ := ih
    obtain ⟨m, hshuts⟩ := hfrozen.shuts ha
    obtain ⟨c, hc, hread⟩ := hfrozen.get_table hclosed ha hget
    exact ⟨c, hc, hpath.tail ⟨⟨_, ha⟩, m, _, k, hshuts, hread⟩⟩

/-- Tables outside are as they were, or not there yet. -/
theorem FrozenFrom.table_outside (hfrozen : FrozenFrom h₁ (h.Copied h₁ r) r p known h₂)
    (hcopy : CopiedFrom h S c r known' h₁) {a : Ref}
    (hout : (Vault.ofKnown h h₂ known).Outside a) : h₂.table a = h.table a ∨ h₂.table a = {} := by
  rcases hout with hlt | hle
  · refine .inl ((hfrozen.proxies.tables a (Nat.lt_of_lt_of_le hlt hcopy.copies.size) ?_).trans
      (hcopy.copies.tables a hlt))
    cases hknown : known[a]? with
    | none => rfl
    | some b => exact absurd (hfrozen.proxies.among a b hknown).1.1 (Nat.not_le_of_lt hlt)
  · exact .inr (Heap.table_of_size_le hle)

theorem FrozenFrom.built (hfrozen : FrozenFrom h₁ (h.Copied h₁ r) r p known h₂)
    (hcopy : CopiedFrom h S c r known' h₁) (hclosed : h.Closed) :
    (Vault.ofKnown h h₂ known).Built { h₂ with shared := p } where
  last := rfl
  root := ⟨r, hfrozen.root⟩
  proxy a := by
    rintro ⟨q, hq⟩
    have hplace := hfrozen.proxies.known q a hq
    have hfirst := Nat.le_trans hcopy.copies.size hplace.2.1
    obtain ⟨m, hshuts⟩ := hfrozen.shuts hq
    refine ⟨?_, ?_, m, q, hshuts.guards, hshuts.secret, hshuts.behind⟩
    · rintro (hlt | hle)
      · exact Nat.lt_irrefl _ (Nat.lt_of_lt_of_le hlt hfirst)
      · exact Nat.lt_irrefl _ (Nat.lt_of_lt_of_le hplace.2.2 hle)
    · -- what is behind a proxy was there before the first proxy was made
      rintro ⟨a', ha'⟩
      exact Nat.lt_irrefl _ (Nat.lt_of_lt_of_le (hfrozen.proxies.known a a' ha').1 hplace.2.1)
  reached a := by
    rintro ⟨q, hq⟩
    obtain ⟨a', ha', hpath⟩ := hfrozen.reached (hcopy.closed hclosed)
      (hfrozen.proxies.among q a hq).2
    rw [hq] at ha'
    cases ha'
    refine Relation.ReflTransGen.mono ?_ _ _ hpath
    rintro b b' ⟨hb, m, d, k, hshuts, hget⟩
    exact ⟨hb, m, d, k, hshuts.congr rfl rfl, hget⟩
  fronted q := by
    rintro ⟨a, hq⟩
    obtain ⟨m, hshuts⟩ := hfrozen.shuts hq
    exact ⟨a, m, ⟨q, hq⟩, hshuts.congr rfl rfl⟩
  inside q := by
    rintro ⟨a, hq⟩ (hlt | hle)
    · exact Nat.lt_irrefl _ (Nat.lt_of_lt_of_le hlt (hfrozen.proxies.among q a hq).1.1)
    · have hsize := Nat.lt_of_lt_of_le (hfrozen.proxies.known q a hq).1 hfrozen.proxies.size
      exact Nat.lt_irrefl _ (Nat.lt_of_lt_of_le hsize hle)
  plain q := by
    rintro ⟨a, hq⟩
    obtain ⟨m, hseal⟩ := hfrozen.guarded q a hq
    exact hseal.behind.metatable.trans (hcopy.plain (hfrozen.proxies.among q a hq).1.1)
  indexed q := by
    rintro (hout | ⟨a, hq⟩)
    · -- a table outside is as it was, or it was never written to
      rcases hfrozen.table_outside hcopy hout with heq | heq
      · exact heq ▸ hclosed.indexed q
      · exact heq ▸ Table.indexed_empty
    · obtain ⟨m, hseal⟩ := hfrozen.guarded q a hq
      exact hseal.behind.indexed
  nested q := by
    rintro ⟨a, hq⟩ k c hget
    exact hfrozen.nested (hcopy.closed hclosed) hq hget
  behind q := by
    rintro ⟨a, hq⟩
    exact hfrozen.behind hcopy hclosed hq
  outside a hout := by
    rcases hfrozen.table_outside hcopy hout with heq | heq
    · exact heq ▸ (hclosed.within a).mono fun e he => .inl he
    · exact heq ▸ Table.within_empty
  stringMeta a ha := by
    have hsame : h₂.stringMeta = h.stringMeta :=
      hfrozen.frame.stringMeta.trans hcopy.frame.stringMeta
    exact .inl (hclosed.stringMeta a (hsame ▸ ha))

end

/-! ## The whole build -/

namespace Heap

variable {h : Heap} {a : Vault}

/-- Fields that are picked from a table are what the table holds. -/
theorem Closed.pick (hc : h.Closed) (r : Ref) (names : List String) :
    ∀ f ∈ h.pick r names, f.2.Within (· < h.tables.size) := by
  intro f hf
  obtain ⟨name, -, rfl⟩ := List.mem_map.mp hf
  exact hc.rawGet r (.ofText name)

/-- What is assembled is closed, if the bindings refer to no missing table. -/
theorem Closed.assembleShared (hc : h.Closed) {bindings : List Binding}
    (hbindings : ∀ b ∈ bindings, b.2.Within (· < h.tables.size)) :
    (h.assembleShared bindings).2.Closed ∧
      (h.assembleShared bindings).1 < (h.assembleShared bindings).2.tables.size := by
  have hle : ∀ (h : Heap) (t : Table) (e : ℕ), e < h.tables.size →
      e < (h.allocTable t).2.tables.size := fun h t e he => by
    rw [size_allocTable]
    exact Nat.lt_succ_of_lt he
  have hlast : ∀ (h : Heap) (t : Table), h.tables.size < (h.allocTable t).2.tables.size := by
    intro h t
    rw [size_allocTable]
    exact Nat.lt_succ_self _
  unfold Heap.assembleShared
  extract_lets clock fields
  have hos : ∀ f ∈ clock, f.2.Within (· < h.tables.size) := by
    intro f hf
    cases hget : h.rawGet h.globals (.ofText "os") with
    | table os =>
      simp only [clock, hget] at hf
      exact hc.pick os _ f hf
    | _ =>
      simp only [clock, hget] at hf
      exact absurd hf (by simp)
  have h₁ := hc.allocNamed hos
  have h₂ := h₁.allocNamed (natives_within (S := (· < _)) .util (fun _ => rfl) utilNames)
  refine ⟨h₂.allocNamed fun f hf => ?_, hlast _ _⟩
  -- each of the three tables is made after those that it refers to
  have hup : ∀ e : ℕ, e < h.tables.size → _ := fun e he => hle _ (namedTable (natives .util utilNames)) e
    (hle h (namedTable clock) e he)
  simp only [List.mem_append, List.mem_singleton] at hf
  rcases hf with (((hf | rfl) | hf) | rfl) | hf
  · exact (hc.pick h.globals _ f hf).mono hup
  · exact Value.within_table.mpr (hle _ _ _ (hlast _ _))
  · exact ((h₁.allocNamed (natives_within .util (fun _ => rfl) utilNames)).pick h.globals _ f hf)
  · exact Value.within_table.mpr (hlast (h.allocTable (namedTable clock)).2 _)
  · exact (hbindings f hf).mono hup

end Heap

/-- Locking strings changes what they have in common. -/
theorem Heap.table_lockStrings {h : Heap} {p : Ref} (hp : h.stringMeta ≠ some p) :
    h.lockStrings.table p = h.table p := by
  unfold Heap.lockStrings
  cases hmeta : h.stringMeta with
  | none => rfl
  | some r =>
    have hne : p ≠ r := by
      rintro rfl
      exact hp hmeta
    simp only
    split
    · exact (Heap.table_modifyTable_of_ne _ hne).trans (Heap.table_modifyTable_of_ne _ hne)
    · rfl

namespace Vault.Built

variable {h h' : Heap} {a : Vault} {r p : ℕ}

/-- A proxy stays one while the tables inside stay as they are. -/
theorem shuts_congr (hb : a.Built h) (hsame : ∀ r, ¬a.Outside r → h'.table r = h.table r)
    (hp : a.proxy p) {m b : Ref} (hs : a.Shuts h p m b) : a.Shuts h' p m b :=
  hs.congr (hsame p (hb.proxy p hp).1) (hsame m fun hm => hs.secret.1 (.inl hm))

/-- What is built depends on the tables inside; those outside need only not see too much. -/
theorem congr (hb : a.Built h) (hsize : h'.tables.size = h.tables.size)
    (hshared : h'.shared = h.shared) (hmeta : h'.stringMeta = h.stringMeta)
    (hsame : ∀ r, ¬a.Outside r → h'.table r = h.table r)
    (houtside : ∀ r, a.Outside r → (h'.table r).Within a.Early ∧ (h'.table r).Indexed) :
    a.Built h' where
  last := hb.last.trans hsize.symm
  root := hshared ▸ hb.root
  proxy p hp := by
    obtain ⟨hinside, hbehind, m, b, hs⟩ := hb.proxy p hp
    exact ⟨hinside, hbehind, m, b, hb.shuts_congr hsame hp hs⟩
  reached p hp := by
    rw [hshared]
    refine Relation.ReflTransGen.mono ?_ _ _ (hb.reached p hp)
    -- each step of the way is from a table inside, which is the same
    rintro q q' ⟨hq, m, b, k, hs, hget⟩
    exact ⟨hq, m, b, k, hb.shuts_congr hsame hq hs, hsame b (hb.inside b hs.behind) ▸ hget⟩
  fronted b hbehind := by
    obtain ⟨p, m, hp, hs⟩ := hb.fronted b hbehind
    exact ⟨p, m, hp, hb.shuts_congr hsame hp hs⟩
  inside := hb.inside
  plain b hbehind := hsame b (hb.inside b hbehind) ▸ hb.plain b hbehind
  indexed r := by
    rintro (hr | hr)
    · exact (houtside r hr).2
    · exact hsame r (hb.inside r hr) ▸ hb.indexed r (.inr hr)
  nested b hbehind := hsame b (hb.inside b hbehind) ▸ hb.nested b hbehind
  behind b hbehind := hsame b (hb.inside b hbehind) ▸ hb.behind b hbehind
  outside r hr := (houtside r hr).1
  stringMeta r hr := hb.stringMeta r (hmeta ▸ hr)

/-- Reading at a proxy reads what is behind it. -/
theorem index_proxy (hb : a.Built h) (hp : a.proxy p) (k : Value) :
    ∃ m b, a.Shuts h p m b ∧ h.index (.table p) k = .value (h.rawGet b k) ∧
      (h.rawGet b k).Within a.Early := by
  obtain ⟨-, -, m, b, hshuts⟩ := hb.proxy p hp
  refine ⟨m, b, hshuts, hshuts.guards.index (hb.plain b hshuts.behind) k, ?_⟩
  unfold Heap.rawGet
  split
  · exact (hb.behind b hshuts.behind).get _
  · exact Value.within_of_none rfl

/-- What is read at a proxy depends on tables inside only. -/
theorem index_congr (hb : a.Built h) (hp : a.proxy p)
    (hsame : ∀ r, ¬a.Outside r → h'.table r = h.table r) (k : Value) :
    h'.index (.table p) k = h.index (.table p) k := by
  obtain ⟨-, -, m, b, hshuts⟩ := hb.proxy p hp
  have hbehind := hsame b (hb.inside b hshuts.behind)
  have hshuts' := hb.shuts_congr hsame hp hshuts
  have hplain := hb.plain b hshuts.behind
  rw [hshuts.guards.index hplain, hshuts'.guards.index (hbehind ▸ hplain)]
  unfold Heap.rawGet
  rw [hbehind]

/-- A field is set in a table outside. -/
theorem rawSetText (hb : a.Built h) (hr : a.Outside r) (name : String) {v : Value}
    (hv : v.Within a.Early) : a.Built (h.rawSetText r name v) := by
  -- of the tables outside only `r` differs, by a value that it may refer to
  refine hb.congr (Heap.size_modifyTable _) rfl rfl (fun q hq => ?_) fun q hq => ?_
  · refine Heap.table_modifyTable_of_ne _ ?_
    rintro rfl
    exact hq hr
  · show ((h.modifyTable r _).table q).Within _ ∧ ((h.modifyTable r _).table q).Indexed
    by_cases hqr : q = r
    · subst hqr
      by_cases hlt : q < h.tables.size
      · rw [Heap.table_modifyTable _ hlt, if_pos rfl]
        exact ⟨(hb.outside q hq).setText name hv, (hb.indexed q (.inl hq)).setText name v⟩
      · rw [Heap.table_of_size_le]
        · exact ⟨Table.within_empty, Table.indexed_empty⟩
        · exact Nat.le_trans (Nat.le_of_eq (Heap.size_modifyTable _)) (Nat.le_of_not_lt hlt)
    · rw [Heap.table_modifyTable_of_ne _ hqr]
      exact ⟨hb.outside q hq, hb.indexed q (.inl hq)⟩

/-- What strings have in common is outside; its fields become proxies. -/
theorem lockStrings (hb : a.Built h) : a.Built h.lockStrings := by
  unfold Heap.lockStrings
  extract_lets frozen
  have hfrozen : frozen.Within a.Early := by
    obtain ⟨m, b, -, hindex, hwithin⟩ := hb.index_proxy hb.root (.ofText "string")
    simp only [frozen, hindex]
    exact hwithin
  cases hmeta : h.stringMeta with
  | none => exact hb
  | some r =>
    have hr := hb.stringMeta r hmeta
    simp only
    split
    · exact (hb.rawSetText hr _ hfrozen).rawSetText hr _ (Value.within_of_none rfl)
    · exact hb

theorem shared_lockStrings (h : Heap) : h.lockStrings.shared = h.shared := by
  unfold Heap.lockStrings
  extract_lets frozen
  split
  · rfl
  · split <;> rfl

/-- Locking strings changes no table of the environment. -/
theorem table_lockStrings (hb : a.Built h) (hp : ¬a.Outside p) :
    h.lockStrings.table p = h.table p :=
  Heap.table_lockStrings fun hmeta => hp (hb.stringMeta p hmeta)

end Vault.Built

/-! ## What proxies show -/

/-- A value is shown as another one: a table as the proxy that stands for it, anything else as itself. -/
def Value.ShownAs (stands : Ref → Ref → Prop) (u v : Value) : Prop :=
  (∃ q p, u = .table q ∧ v = .table p ∧ stands q p) ∨ (∀ q, u ≠ .table q) ∧ v = u

/-- Reading at proxies in `h'` shows the tables of `h` that they stand for. -/
structure Vault.Shows (a : Vault) (h h' : Heap) (stands : Ref → Ref → Prop) : Prop where
  proxy : ∀ q p, stands q p → a.proxy p
  index : ∀ q p, stands q p → ∀ k,
    ∃ v, h'.index (.table p) k = .value v ∧ (h.rawGet q k).ShownAs stands v

theorem FrozenFrom.get_shown {h h₁ h₂ : Heap} {S : Ref → Prop} {r c p : Ref} {known known' : Known}
    (hfrozen : FrozenFrom h₁ (h.Copied h₁ c) c p known' h₂) (hcopy : CopiedFrom h S r c known h₁)
    (hclosed : h.Closed) {q d e : Ref} (hq : known[q]? = some d) (hd : known'[d]? = some e)
    (k : Key) : ((h.table q).get k).ShownAs
      (fun q p => ∃ d, known[q]? = some d ∧ known'[d]? = some p) ((h₂.table d).get k) := by
  have hreplica := hcopy.replica q d hq
  have hcopied := hcopy.closed hclosed
  have hget := hreplica.get_eq (hclosed.indexed q) (k := k)
  by_cases htable : ∃ q', (h.table q).get k = .table q'
  · obtain ⟨q', hq'⟩ := htable
    obtain ⟨d', hd'⟩ := hreplica.met k
      ((Table.mem_entryKeys (hclosed.indexed q)).mpr (by rw [hq']; rfl)) q' hq'
    rw [hq', Value.image_table hd'] at hget
    obtain ⟨e', he', hread⟩ := hfrozen.get_table hcopied hd hget
    exact .inl ⟨q', e', hq', hread, d', hd', he'⟩
  · have hnone : ∀ q', (h.table q).get k ≠ .table q' := fun q' hq' => htable ⟨q', hq'⟩
    rw [Value.image_of_not_table hnone] at hget
    obtain ⟨m, hseal⟩ := hfrozen.guarded d e hd
    refine .inr ⟨hnone, ?_⟩
    rw [hseal.behind.get_eq (hcopied.indexed d) fun _ h => h, hget,
      Value.image_of_not_table hnone]

/-- A table of a closed heap that is copied and frozen is a vault, whose proxies show what there was. -/
theorem Heap.Closed.freezeCopy {h : Heap} (hc : h.Closed) {r : ℕ} (hr : r < h.tables.size) {root : Ref}
    {h' : Heap} (heq : (h.copyTable r).2.freezeTable (h.copyTable r).1 = (root, h')) :
    ∃ (a : Vault) (stands : Ref → Ref → Prop), a.Built { h' with shared := root } ∧
      a.Shows h { h' with shared := root } stands ∧ stands r root := by
  obtain ⟨known, hcopy⟩ := copyTable_spec (S := fun _ => True) hc (fun _ _ _ _ _ => trivial)
    trivial hr
  have hcopied := hcopy.closed hc
  have hplace := (hcopy.copies.known _ _ hcopy.root).2
  -- of the copy all tables are frozen, since all can be reached from its root
  obtain ⟨known', hfrozen⟩ := freezeTable_spec hcopied (hcopy.copied_of_get hc) ⟨hplace, .refl⟩ hplace.2
  rw [heq] at hfrozen
  have hbuilt := hfrozen.built hcopy hc
  refine ⟨_, fun q p => ∃ d, known[q]? = some d ∧ known'[d]? = some p, hbuilt, ⟨?_, ?_⟩,
    _, hcopy.root, hfrozen.root⟩
  · rintro q p ⟨d, -, hd⟩
    exact ⟨d, hd⟩
  · rintro q p ⟨d, hq, hd⟩ k
    obtain ⟨m, hseal⟩ := hfrozen.guarded d p hd
    have hguards : { h' with shared := root }.Guards p m d := hseal.guards
    refine ⟨_, hguards.index (hbuilt.plain d ⟨p, hd⟩) k, ?_⟩
    unfold Heap.rawGet
    split
    · exact hfrozen.get_shown hcopy hc hq hd _
    · exact .inr ⟨fun _ => Value.noConfusion, rfl⟩

/-- **The shared environment.** In every closed heap it is built as a vault, whose proxies show what was
assembled. -/
theorem Heap.Closed.buildShared {h : Heap} (hc : h.Closed) {bindings : List Binding}
    (hbindings : ∀ b ∈ bindings, b.2.Within (· < h.tables.size)) :
    ∃ (a : Vault) (stands : Ref → Ref → Prop), a.Built (h.buildShared bindings) ∧
      a.Shows (h.assembleShared bindings).2 (h.buildShared bindings) stands ∧
      stands (h.assembleShared bindings).1 (h.buildShared bindings).shared := by
  obtain ⟨hclosed, hlt⟩ := hc.assembleShared hbindings
  obtain ⟨a, stands, hbuilt, hshows, hroot⟩ := hclosed.freezeCopy hlt rfl
  refine ⟨a, stands, hbuilt.lockStrings, ⟨hshows.proxy, fun q p hq k => ?_⟩, ?_⟩
  · obtain ⟨v, hindex, hv⟩ := hshows.index q p hq k
    refine ⟨v, ?_, hv⟩
    rw [← hindex]
    exact hbuilt.index_congr (hshows.proxy q p hq) (fun r hr => hbuilt.table_lockStrings hr) k
  · show stands _ (Heap.lockStrings _).shared
    rw [Vault.Built.shared_lockStrings]
    exact hroot

end ScriptHost.Guest
